import Zaphyl.RevalidationResource
/-!
# OriginHost — the host an origin is asked for

One cache is filled by misses of HTTP/1 and HTTP/2, by misses of HTTP/3 and by revalidations, each with a `Host` of its
own making: the client's, that of the upstream's address, and that of the cache key.  Where each is the client's host
is `KeepsHost`.
-/
namespace Zaphyl

open Text (before)

/-- The text names the host, with or without a port. -/
def NamesHost (seen host : Str) : Prop :=
  seen = host ∨ ∃ port, port.all Char.isDigit = true ∧ seen = host ++ ':' :: port

/-- `update_h2_scheme_authority`: what begins with a second colon is cut off. -/
def h2Authority (rawHost : Str) : Str :=
  if rawHost.head? = some '[' then rawHost
  else if ':' ∈ rawHost then
    let host := before ':' rawHost
    host ++ ':' :: before ':' (rawHost.drop (host.length + 1))
  else rawHost

namespace ZaphylProxy

/-- The path and query that replaces the request's URI. -/
def rewrittenUri (s : Server) (v : Visit) (matched : Route) : Option Str :=
  ((matched.rewritePath v.req.uri.path).map (fun path => withQuery path v.req.uri.query)).filter s.validUri

/-- What becomes of a request's `Host`: an HTTP/2 upstream gets it as its authority, when that makes a URI. -/
def hostGiven (s : Server) (request : OriginRequest) (host : Str) : Option Str :=
  if request.target.h2 then
    if s.validUri (originUri { request.target with address := h2Authority host } request.uri) then some (h2Authority host)
    else none
  else some host

/-- The host an upstream of HTTP/1 and HTTP/2 is asked for; `none` when no request with one is sent. -/
def hostSeen (s : Server) (arrival : Arrival) (v : Visit) (matched : Route) (target : Target) : Option Str :=
  let request := upstreamRequest s v matched target
  match request.headers.get HeaderName.host with
  | some host => hostGiven s request host.text
  | none =>
    -- Pingora puts the authority of an HTTP/2 request into the `Host` of an HTTP/1 upstream, before the route's headers;
    -- for an HTTP/2 upstream it leaves the authority in the URI, which a rewritten path replaces
    if arrival = .http2 ∧ (target.h2 = false ∨ rewrittenUri s v matched = none) then v.req.uri.authority else none

end ZaphylProxy

/-- The `Host` hyper's client sends: the one that is set, or else one it derives from the URI. -/
def OriginRequest.hyperHost (derive : Str → Str) (request : OriginRequest) : Str :=
  match request.headers.get HeaderName.host with
  | some host => host.text
  | none => derive request.uri

/-- How an entry of the cache is filled. -/
inductive Filling
  | miss
  | revalidation
deriving DecidableEq

def Arrival.listener : Arrival → Listener
  | .http1 => .http1
  | .http2 => .http1
  | .http3 => .http3

/-- The origin that fills an entry sees this host. -/
def Server.OriginSees (s : Server) (derive : Str → Str) (arrival : Arrival) (v : Visit) (matched : Route)
    (target : Target) (filling : Filling) (seen : Str) : Prop :=
  match filling, arrival with
  | .revalidation, _ => ∃ request, s.Revalidates arrival.listener v request ∧ seen = request.hyperHost derive
  | .miss, .http3 => ∃ request, Http3.upstreamRequest s v matched target = some request ∧ seen = request.hyperHost derive
  | .miss, _ => ZaphylProxy.hostSeen s arrival v matched target = some seen

/-- The `Host` of a route's headers that HTTP/3 forwards, or the one derived from the upstream's URI. -/
def Http3.hostForwarded (derive : Str → Str) (v : Visit) (matched : Route) (target : Target) : Str :=
  ((Multimap.valuesAt HeaderName.host matched.headerLines).head?.map HeaderValue.text).getD
    (derive (upstreamUri v matched target))

/-- Where the origin is asked for the client's host: a revalidation when the cache key has it, or none is sent; a miss of
HTTP/3 when nothing can be forwarded, or the route's `Host` or else the upstream's address names it; any other miss when
the route sets no other `Host` that is sent. -/
def Server.KeepsHost (s : Server) (derive : Str → Str) (a : Authority) (arrival : Arrival) (v : Visit) (matched : Route)
    (target : Target) (filling : Filling) : Prop :=
  match filling, arrival with
  | .revalidation, _ => PlainArrival a v.req arrival ∨ ∀ request, ¬ s.Revalidates arrival.listener v request
  | .miss, .http3 => Http3.Unforwardable s v matched target ∨
      NamesHost (Http3.hostForwarded derive v matched target) a.host.text
  | .miss, _ => ∀ host seen, (Multimap.valuesAt HeaderName.host matched.headerLines).getLast? = some host →
      ZaphylProxy.hostGiven s (ZaphylProxy.upstreamRequest s v matched target) host.text = some seen →
      NamesHost seen a.host.text

/-! ## Hosts -/

theorem Authority.namesHost_text (a : Authority) : NamesHost a.text a.host.text := by
  unfold Authority.text
  cases hport : a.port with
  | none => exact Or.inl rfl
  | some port => exact Or.inr ⟨port, a.digits port hport, rfl⟩

theorem HostForm.text_ne_nil (host : HostForm) : host.text ≠ [] := by
  cases host with
  | named name wf => exact wf.1
  | ipv6 address wf => exact List.cons_ne_nil _ _

theorem not_namesHost_nil (host : HostForm) : ¬ NamesHost [] host.text := by
  rintro (h | ⟨port, -, h⟩)
  · exact host.text_ne_nil h.symm
  · exact absurd h.symm (by simp)

/-- A text without a colon names no IPv6 literal. -/
theorem not_namesHost_of_ipv6 {seen : Str} (hcolon : ':' ∉ seen) {host : HostForm} (h : host.IsIpv6) :
    ¬ NamesHost seen host.text := by
  cases host with
  | named name wf => exact absurd h id
  | ipv6 address wf =>
    have hmem : ':' ∈ (HostForm.ipv6 address wf).text := by simp [HostForm.text, wf.1]
    rintro (rfl | ⟨port, -, rfl⟩)
    · exact hcolon hmem
    · exact hcolon (List.mem_append_left _ hmem)

/-- **An HTTP/2 authority names the host that the `Host` names.** -/
theorem namesHost_h2Authority {seen : Str} {host : HostForm} (h : NamesHost seen host.text) :
    NamesHost (h2Authority seen) host.text := by
  unfold h2Authority
  by_cases hbracket : seen.head? = some '['
  · rwa [if_pos hbracket]
  · rw [if_neg hbracket]
    cases host with
    | ipv6 address wf =>
      -- a literal begins with a bracket
      rcases h with rfl | ⟨port, -, rfl⟩
      · exact absurd rfl hbracket
      · exact absurd rfl hbracket
    | named name wf =>
      have hcolon : ':' ∉ name := colon_not_mem_named wf.2
      rcases h with rfl | ⟨port, hdigits, rfl⟩
      · rw [if_neg hcolon]
        exact Or.inl rfl
      · have hport : before ':' port = port :=
          Text.before_of_not_mem (fun hm => absurd (List.all_eq_true.1 hdigits _ hm) (by decide))
        have hdrop : (name ++ ':' :: port).drop (name.length + 1) = port := by simp
        have hbefore : before ':' (name ++ ':' :: port) = name := Text.before_append_cons hcolon port
        have hmem : ':' ∈ name ++ ':' :: port := List.mem_append_right _ List.mem_cons_self
        show NamesHost (if ':' ∈ name ++ ':' :: port then before ':' (name ++ ':' :: port) ++ ':' :: before ':'
          ((name ++ ':' :: port).drop ((before ':' (name ++ ':' :: port)).length + 1)) else name ++ ':' :: port) name
        rw [if_pos hmem, hbefore, hdrop, hport]
        exact Or.inr ⟨port, hdigits, rfl⟩

/-! ## Revalidations -/

/-- The `Host` of a conditional request is the host of the cache key. -/
theorem hyperHost_conditional {s : Server} {target : Target} {l : CacheLookup} {etag : Str} {request : OriginRequest}
    (derive : Str → Str) (h : s.conditional target l etag = some request) : request.hyperHost derive = l.host := by
  unfold Server.conditional at h
  split at h
  · obtain ⟨headers, hheaders, rfl⟩ := Option.map_eq_some_iff.1 h
    obtain ⟨hvalid, rfl⟩ := foldlM_addHeader_eq_some_iff.1 hheaders
    obtain ⟨⟨name, value⟩, hline⟩ := Option.ne_none_iff_exists'.1 (hvalid _ List.mem_cons_self)
    obtain ⟨hname, hvalue⟩ := validLine_eq_some_iff.1 hline
    have hhost : name = HeaderName.host := by
      have hparsed : HeaderName.parse HeaderName.host.text = some HeaderName.host := by decide
      exact Option.some.inj (hname.symm.trans hparsed)
    have hget : HeaderMap.get ⟨Multimap.addAll ([(HeaderName.host.text, l.host), (HeaderName.ifNoneMatch.text, etag)].filterMap
        validLine) []⟩ HeaderName.host = some value := by
      have hfirst := Multimap.head?_valuesAt_addAll HeaderName.host
        ([(HeaderName.host.text, l.host), (HeaderName.ifNoneMatch.text, etag)].filterMap validLine) []
      rw [HeaderMap.get_eq_head?]
      refine hfirst.trans ?_
      rw [List.filterMap_cons_some hline, hhost, Multimap.valuesAt_cons_pair]
      rfl
    unfold OriginRequest.hyperHost
    rw [hget]
    exact HeaderValue.text_of_ofStr hvalue
  · cases h

theorem lookupOf_listener (s : Server) (arrival : Arrival) (req : Request) :
    s.proxy.lookupOf arrival.listener req = cacheLookupOf s.proxy.uriHost req arrival := by
  cases arrival <;> rfl

/-- **The cache key names the client's host exactly on a plain arrival.** -/
theorem namesHost_key_iff {s : Server} (hUri : StripsPort s.proxy.uriHost) {a : Authority} {req : Request}
    {arrival : Arrival} (ha : ArrivesFor a req arrival) {l : CacheLookup}
    (hl : s.proxy.lookupOf arrival.listener req = some l) :
    NamesHost l.host a.host.text ↔ PlainArrival a req arrival := by
  rw [lookupOf_listener] at hl
  by_cases hplain : PlainArrival a req arrival
  · have hderives := (derives_host_iff hUri ha).2 hplain
    rw [hderives.lookup] at hl
    exact iff_of_true (Or.inl (cacheLookup_eq_some hl).1) hplain
  · refine iff_of_false ?_ hplain
    have hheader : ZaphylProxy.cacheLookup req = some l → ¬ NamesHost l.host a.host.text := by
      intro hlookup
      rw [(cacheLookup_eq_some hlookup).1]
      obtain ⟨hhttp3, hnot⟩ := not_or.1 hplain
      cases hhost : ZaphylProxy.headerHost req with
      | none => exact not_namesHost_nil a.host
      | some host =>
        obtain ⟨text, htext, rfl⟩ := Option.map_eq_some_iff.1 hhost
        have hipv6 : a.host.IsIpv6 := by
          by_contra hname
          exact hnot ⟨get_ne_none_of_getStr htext, hname⟩
        exact not_namesHost_of_ipv6 (Text.not_mem_before ':' text) hipv6
    cases arrival with
    | http1 => exact hheader hl
    | http2 => exact hheader hl
    | http3 => exact absurd (Or.inl rfl) hplain

/-! ## Misses -/

namespace ZaphylProxy

variable {s : Server} {v : Visit} {matched : Route} {target : Target}

theorem get_host_upstreamRequest :
    (upstreamRequest s v matched target).headers.get HeaderName.host =
      (Multimap.valuesAt HeaderName.host matched.headerLines).getLast?.or (v.req.headers.get HeaderName.host) := by
  rw [HeaderMap.get_eq_head?, values_upstreamRequest s v matched target (by decide) (by decide)]
  cases (Multimap.valuesAt HeaderName.host matched.headerLines).getLast? with
  | none =>
    rw [Option.map_none, Option.getD_none, Option.none_or]
    exact (HeaderMap.get_eq_head? _ _).symm
  | some host => rfl

theorem namesHost_hostGiven {request : OriginRequest} {host seen : Str} {form : HostForm} (h : NamesHost host form.text)
    (hseen : hostGiven s request host = some seen) : NamesHost seen form.text := by
  unfold hostGiven at hseen
  split at hseen
  · split at hseen
    · rw [← Option.some.inj hseen]
      exact namesHost_h2Authority h
    · cases hseen
  · rwa [← Option.some.inj hseen]

/-- Without a `Host` of the route, an upstream is asked for the client's host. -/
theorem namesHost_hostSeen {a : Authority} {arrival : Arrival} (harrival : arrival.listener = .http1)
    (ha : ArrivesFor a v.req arrival) (hnone : (Multimap.valuesAt HeaderName.host matched.headerLines).getLast? = none)
    {seen : Str} (hseen : hostSeen s arrival v matched target = some seen) : NamesHost seen a.host.text := by
  have hget : (upstreamRequest s v matched target).headers.get HeaderName.host = v.req.headers.get HeaderName.host := by
    rw [get_host_upstreamRequest, hnone, Option.none_or]
  have hheader : v.req.headers.getStr HeaderName.host = some a.text → NamesHost seen a.host.text := by
    intro hhost
    obtain ⟨value, hvalue, htext⟩ := Option.bind_eq_some_iff.1 hhost
    simp only [hostSeen, hget, hvalue, HeaderValue.text_of_toStr htext] at hseen
    exact namesHost_hostGiven a.namesHost_text hseen
  cases arrival with
  | http1 => exact hheader ha
  | http2 =>
    obtain ⟨hauthority, hhost | hmissing⟩ := ha
    · exact hheader hhost
    · simp only [hostSeen, hget, hmissing] at hseen
      split at hseen
      · rw [hauthority] at hseen
        rw [← Option.some.inj hseen]
        exact a.namesHost_text
      · cases hseen
  | http3 => cases harrival

theorem hostSeen_of_configured {arrival : Arrival} {host : HeaderValue}
    (h : (Multimap.valuesAt HeaderName.host matched.headerLines).getLast? = some host) :
    hostSeen s arrival v matched target = hostGiven s (upstreamRequest s v matched target) host.text := by
  have hget : (upstreamRequest s v matched target).headers.get HeaderName.host = some host := by
    rw [get_host_upstreamRequest, h, Option.some_or]
  simp only [hostSeen, hget]

/-- An upstream is asked for the client's host exactly where every `Host` of the route names it. -/
theorem hostSeen_names_iff {a : Authority} {arrival : Arrival} (harrival : arrival.listener = .http1)
    (ha : ArrivesFor a v.req arrival) :
    (∀ seen, hostSeen s arrival v matched target = some seen → NamesHost seen a.host.text) ↔
      ∀ host seen, (Multimap.valuesAt HeaderName.host matched.headerLines).getLast? = some host →
        hostGiven s (upstreamRequest s v matched target) host.text = some seen → NamesHost seen a.host.text := by
  constructor
  · intro h host seen hhost hgiven
    exact h seen ((hostSeen_of_configured hhost).trans hgiven)
  · intro h seen hseen
    cases hhost : (Multimap.valuesAt HeaderName.host matched.headerLines).getLast? with
    | none => exact namesHost_hostSeen harrival ha hhost hseen
    | some host => exact h host seen hhost ((hostSeen_of_configured hhost).symm.trans hseen)

end ZaphylProxy

theorem hyperHost_upstreamRequest {s : Server} {v : Visit} {matched : Route} {target : Target} {request : OriginRequest}
    (derive : Str → Str) (h : Http3.upstreamRequest s v matched target = some request) :
    request.hyperHost derive = Http3.hostForwarded derive v matched target := by
  obtain ⟨-, -, rfl⟩ := Http3.upstreamRequest_eq_some_iff.1 h
  unfold OriginRequest.hyperHost Http3.hostForwarded
  rw [Http3.get_host_upstreamHeaders]
  cases (Multimap.valuesAt HeaderName.host matched.headerLines).head? with
  | none => rfl
  | some host => rfl

/-- A forwarded HTTP/3 request asks for the client's host exactly where the host it is given names it. -/
theorem hyperHost_forwarded_names_iff (s : Server) (derive : Str → Str) (a : Authority) (v : Visit) (matched : Route)
    (target : Target) :
    (∀ seen, (∃ request, Http3.upstreamRequest s v matched target = some request ∧ seen = request.hyperHost derive) →
        NamesHost seen a.host.text) ↔
      (Http3.Unforwardable s v matched target ∨ NamesHost (Http3.hostForwarded derive v matched target) a.host.text) := by
  constructor
  · intro h
    by_cases hsent : Http3.Unforwardable s v matched target
    · exact Or.inl hsent
    · have hrequest := Http3.upstreamRequest_of_forwardable hsent
      have hnames := h _ ⟨_, hrequest, rfl⟩
      rw [hyperHost_upstreamRequest derive hrequest] at hnames
      exact Or.inr hnames
  · rintro h seen ⟨request, hrequest, rfl⟩
    rw [hyperHost_upstreamRequest derive hrequest]
    exact h.resolve_left (Http3.not_unforwardable_of_some hrequest)

/-- A conditional request asks for the client's host exactly when it arrived plainly. -/
theorem hyperHost_revalidation_names_iff {s : Server} (hUri : StripsPort s.proxy.uriHost) (derive : Str → Str)
    {a : Authority} {arrival : Arrival} {v : Visit} (ha : ArrivesFor a v.req arrival) :
    (∀ seen, (∃ request, s.Revalidates arrival.listener v request ∧ seen = request.hyperHost derive) →
        NamesHost seen a.host.text) ↔
      (PlainArrival a v.req arrival ∨ ∀ request, ¬ s.Revalidates arrival.listener v request) := by
  constructor
  · intro h
    by_cases hsent : ∃ request, s.Revalidates arrival.listener v request
    · obtain ⟨request, hrequest⟩ := hsent
      obtain ⟨l, t, etag, hl, hconditional⟩ := hrequest.conditional
      have hnames := h _ ⟨request, hrequest, rfl⟩
      rw [hyperHost_conditional derive hconditional] at hnames
      exact Or.inl ((namesHost_key_iff hUri ha hl).1 hnames)
    · exact Or.inr (not_exists.1 hsent)
  · rintro h seen ⟨request, hrequest, rfl⟩
    rcases h with hplain | hnone
    · obtain ⟨l, t, etag, hl, hconditional⟩ := hrequest.conditional
      rw [hyperHost_conditional derive hconditional]
      exact (namesHost_key_iff hUri ha hl).2 hplain
    · exact absurd hrequest (hnone request)

/-! ## Every filling -/

/-- **The origin that fills an entry is asked for the client's host exactly where the filling keeps it.** -/
theorem origin_sees_host_iff {s : Server} (hUri : StripsPort s.proxy.uriHost) (derive : Str → Str) {a : Authority}
    {arrival : Arrival} {v : Visit} (ha : ArrivesFor a v.req arrival) (matched : Route) (target : Target)
    (filling : Filling) :
    (∀ seen, s.OriginSees derive arrival v matched target filling seen → NamesHost seen a.host.text) ↔
      s.KeepsHost derive a arrival v matched target filling := by
  cases filling with
  | revalidation => exact hyperHost_revalidation_names_iff hUri derive ha
  | miss =>
    cases arrival with
    | http1 => exact ZaphylProxy.hostSeen_names_iff rfl ha
    | http2 => exact ZaphylProxy.hostSeen_names_iff rfl ha
    | http3 => exact hyperHost_forwarded_names_iff s derive a v matched target

/-! ## A page of a site -/

/-- The authority of an absolute URI, without a port that is the scheme's own. -/
def uriHostAndPort (uri : Str) : Str :=
  let https := "https://".toList.isPrefixOf uri
  let authority := (uri.drop (if https then 8 else 7)).takeWhile (fun c => c != '/' && c != '?')
  (authority.dropSuffix? (if https then ":443".toList else ":80".toList)).getD authority

def siteServer : Server := runningServer oneUpstream.router

def siteVisit : Visit := visitOf (getOverH2 siteA)

def siteRoute : Route := Route.new none none [Target.new "127.0.0.1:3000".toList false "127.0.0.1".toList]

def siteTarget : Target := Target.new "127.0.0.1:3000".toList false "127.0.0.1".toList

theorem http2_miss_asks_for_the_site :
    StripsPort siteServer.proxy.uriHost ∧ ArrivesFor siteA siteVisit.req .http2 ∧
      (∃ seen, siteServer.OriginSees uriHostAndPort .http2 siteVisit siteRoute siteTarget .miss seen) ∧
      ∀ seen, siteServer.OriginSees uriHostAndPort .http2 siteVisit siteRoute siteTarget .miss seen →
        NamesHost seen siteA.host.text := by
  have harrives : ArrivesFor siteA siteVisit.req .http2 := ⟨rfl, Or.inr rfl⟩
  refine ⟨bracketedHost_stripsPort, harrives, ⟨siteA.text, rfl⟩, ?_⟩
  apply (origin_sees_host_iff bracketedHost_stripsPort uriHostAndPort harrives siteRoute siteTarget .miss).2
  intro host seen hhost
  cases hhost

/-- **A miss of HTTP/3 asks the origin for the upstream's address.** -/
theorem http3_miss_asks_for_the_address :
    ArrivesFor siteA siteVisit.req .http3 ∧ siteServer.proxy.upstreamRoute .http3 siteVisit.req = some siteRoute ∧
      siteRoute.nextTarget.1 = some siteTarget ∧
      siteServer.OriginSees uriHostAndPort .http3 siteVisit siteRoute siteTarget .miss "127.0.0.1:3000".toList ∧
      siteServer.OriginSees uriHostAndPort .http2 siteVisit siteRoute siteTarget .miss "a.test:8443".toList ∧
      ¬ ∀ (arrival : Arrival) (filling : Filling) (seen : Str),
        siteServer.OriginSees uriHostAndPort arrival siteVisit siteRoute siteTarget filling seen →
          NamesHost seen siteA.host.text := by
  have hseen : siteServer.OriginSees uriHostAndPort .http3 siteVisit siteRoute siteTarget .miss "127.0.0.1:3000".toList :=
    ⟨_, rfl, rfl⟩
  refine ⟨rfl, rfl, rfl, hseen, rfl, fun h => ?_⟩
  rcases h .http3 .miss _ hseen with h | ⟨port, -, h⟩
  · revert h
    decide
  · have hhead : some '1' = some 'a' := congrArg List.head? h
    exact absurd hhead (by decide)

end Zaphyl
