import Zaphyl.CacheKey
import Zaphyl.Router
/-!
# Authority — the host each listener derives from a request

A request names an authority: a registered name, an IPv4 literal or a bracketed IPv6 literal, with or without a port.
HTTP/1 and HTTP/2 requests are routed, cached and redirected by their `Host` header cut at its first colon, HTTP/3
requests by the host of their URI.  The derived host is the authority's own on HTTP/3, and elsewhere when there is a
`Host` header and the host is no IPv6 literal (`derives_host_iff`).
-/
namespace Zaphyl

open Text (before)

/-! ## Authorities -/

def isRegNameChar (c : Char) : Bool := c.isAlphanum || c ∈ "-._~!$&'()*+,;=%".toList

def isHexDigit (c : Char) : Bool := c.isDigit || ('a' ≤ c && c ≤ 'f') || ('A' ≤ c && c ≤ 'F')

inductive HostForm
  | named (name : Str) (wf : name ≠ [] ∧ name.all isRegNameChar = true)
  | ipv6 (address : Str) (wf : ':' ∈ address ∧ address.all (fun c => isHexDigit c || c == ':' || c == '.') = true)

namespace HostForm

def text : HostForm → Str
  | named name _ => name
  | ipv6 address _ => '[' :: address ++ [']']

def IsIpv6 : HostForm → Prop
  | named _ _ => False
  | ipv6 _ _ => True

end HostForm

/-- A host, and a port of decimal digits if there is one. -/
structure Authority where
  host : HostForm
  port : Option Str
  digits : ∀ p ∈ port, p.all Char.isDigit = true

namespace Authority

def text (a : Authority) : Str :=
  match a.port with
  | none => a.host.text
  | some port => a.host.text ++ ':' :: port

end Authority

/-- What the HTTP/3 listener relies on `Uri::host` for: it drops the port and keeps the brackets. -/
def StripsPort (uriHost : Uri → Option Str) : Prop :=
  ∀ (a : Authority) (pathAndQuery : Option Str), uriHost ⟨some a.text, pathAndQuery⟩ = some a.host.text

/-! ### In the text of a URI -/

/-- The characters that end the authority of a URI. -/
def endsAuthority (c : Char) : Bool := c == '/' || c == '?' || c == '#'

def withoutScheme (uri : Str) : Str :=
  match uri.dropWhile (fun c => c != ':' && !endsAuthority c) with
  | ':' :: '/' :: '/' :: rest => rest
  | _ => uri

/-- The authority of an absolute URI. -/
def uriAuthority (uri : Str) : Str := (withoutScheme uri).takeWhile (fun c => !endsAuthority c)

/-- What stands behind the authority, without a fragment. -/
def behindAuthority (text : Str) : Str := (before '#' text).dropWhile (fun c => !endsAuthority c)

/-- The path and query of the URI that a text is parsed as: a text that is none itself names what stands behind its
authority. -/
def parsedPathAndQuery (text : Str) : Str :=
  if text.head? = some '/' ∨ text = ['*'] then text else behindAuthority (withoutScheme text)

/-- A text begins with a scheme, which ends before a slash, or has none. -/
theorem withoutScheme_cases (text : Str) : withoutScheme text = text ∨
    ∃ scheme, text = scheme ++ ':' :: '/' :: '/' :: withoutScheme text ∧ ∀ c ∈ scheme, endsAuthority c = false := by
  unfold withoutScheme
  split
  · rename_i rest hrest
    refine .inr ⟨text.takeWhile (fun c => c != ':' && !endsAuthority c), ?_, fun c hc => ?_⟩
    · rw [← hrest, List.takeWhile_append_dropWhile]
    · have hkept := List.mem_takeWhile_imp (p := fun c => c != ':' && !endsAuthority c) hc
      simpa using (Bool.and_eq_true_iff.1 hkept).2
  · exact .inl rfl

/-! ## The listeners -/

inductive Arrival
  | http1
  | http2
  | http3
deriving DecidableEq

/-- A request that arrives for an authority: HTTP/1 has it in `Host`, HTTP/2 in the URI and `Host` may be missing,
HTTP/3 in the URI. -/
def ArrivesFor (a : Authority) (req : Request) : Arrival → Prop
  | .http1 => req.headers.getStr HeaderName.host = some a.text
  | .http2 => req.uri.authority = some a.text ∧
      (req.headers.getStr HeaderName.host = some a.text ∨ req.headers.get HeaderName.host = none)
  | .http3 => req.uri.authority = some a.text

namespace Http3

def cacheLookup (uriHost : Uri → Option Str) (req : Request) : Option CacheLookup :=
  Zaphyl.cacheLookup ((uriHost req.uri).getD []) req

end Http3

namespace HttpFront

def httpsUrl (host : Str) (httpsPort : UInt16) (pathAndQuery : Str) : Str :=
  if httpsPort = 443 then "https://".toList ++ host ++ pathAndQuery
  else "https://".toList ++ host ++ ':' :: Nat.toDigits 10 httpsPort.toNat ++ pathAndQuery

/-- The `Location` of `redirect_to_https`: the same host and path over HTTPS. -/
def redirectLocation (req : Request) (httpsPort : UInt16) : Str :=
  httpsUrl ((ZaphylProxy.headerHost req).getD []) httpsPort req.uri.pathAndQueryOr

end HttpFront

def routeHost (uriHost : Uri → Option Str) (req : Request) : Arrival → Option Str
  | .http1 => ZaphylProxy.headerHost req
  | .http2 => ZaphylProxy.headerHost req
  | .http3 => uriHost req.uri

@[simp] theorem routeHost_http1 (uriHost : Uri → Option Str) (req : Request) :
    routeHost uriHost req .http1 = ZaphylProxy.headerHost req := rfl

@[simp] theorem routeHost_http2 (uriHost : Uri → Option Str) (req : Request) :
    routeHost uriHost req .http2 = ZaphylProxy.headerHost req := rfl

def cacheLookupOf (uriHost : Uri → Option Str) (req : Request) : Arrival → Option CacheLookup
  | .http1 => ZaphylProxy.cacheLookup req
  | .http2 => ZaphylProxy.cacheLookup req
  | .http3 => Http3.cacheLookup uriHost req

/-- **One host everywhere**: the route, the cache key and the redirect of a request are those of `host`. -/
structure Derives (uriHost : Uri → Option Str) (req : Request) (arrival : Arrival) (host : Str) : Prop where
  route : routeHost uriHost req arrival = some host
  lookup : cacheLookupOf uriHost req arrival = cacheLookup host req
  redirect : arrival = .http1 → ∀ httpsPort,
    HttpFront.redirectLocation req httpsPort = HttpFront.httpsUrl host httpsPort req.uri.pathAndQueryOr

/-- The request came over HTTP/3, or has a `Host` header naming no IPv6 literal. -/
def PlainArrival (a : Authority) (req : Request) (arrival : Arrival) : Prop :=
  arrival = .http3 ∨ req.headers.get HeaderName.host ≠ none ∧ ¬ a.host.IsIpv6

/-! ## The derived host -/

theorem colon_not_mem_named {name : Str} (h : name.all isRegNameChar = true) : ':' ∉ name := fun hm =>
  absurd (List.all_eq_true.1 h _ hm) (by decide)

theorem before_colon_text {a : Authority} (h : ¬ a.host.IsIpv6) : before ':' a.text = a.host.text := by
  obtain ⟨host, port, digits⟩ := a
  cases host with
  | ipv6 address wf => exact absurd trivial h
  | named name wf =>
    have hc : ':' ∉ name := colon_not_mem_named wf.2
    cases port with
    | none => exact Text.before_of_not_mem hc
    | some port => exact Text.before_append_cons hc port

theorem before_colon_ne_of_ipv6 {a : Authority} (h : a.host.IsIpv6) : before ':' a.text ≠ a.host.text := by
  intro heq
  have hmem : ':' ∈ a.host.text := by
    cases hh : a.host with
    | named name wf =>
      rw [hh] at h
      exact absurd h id
    | ipv6 address wf =>
      show ':' ∈ '[' :: address ++ [']']
      simp [wf.1]
  rw [← heq] at hmem
  exact Text.not_mem_before _ _ hmem

theorem headerHost_of_getStr {req : Request} {s : Str} (h : req.headers.getStr HeaderName.host = some s) :
    ZaphylProxy.headerHost req = some (before ':' s) := by
  rw [ZaphylProxy.headerHost, h, Option.map_some]

theorem headerHost_of_get_eq_none {req : Request} (h : req.headers.get HeaderName.host = none) :
    ZaphylProxy.headerHost req = none := by
  rw [ZaphylProxy.headerHost, HeaderMap.getStr, h, Option.bind_none, Option.map_none]

theorem get_ne_none_of_getStr {m : HeaderMap} {n : HeaderName} {s : Str} (h : m.getStr n = some s) :
    m.get n ≠ none := by
  intro hn
  rw [HeaderMap.getStr, hn] at h
  cases h

theorem derives_of_routeHost {uriHost : Uri → Option Str} {req : Request} {arrival : Arrival} {host : Str}
    (h : routeHost uriHost req arrival = some host) : Derives uriHost req arrival host := by
  have hheader : ZaphylProxy.headerHost req = some host → ZaphylProxy.cacheLookup req = cacheLookup host req := by
    intro hh
    simp only [ZaphylProxy.cacheLookup, hh, Option.getD_some]
  refine ⟨h, ?_, ?_⟩
  · cases arrival with
    | http1 => exact hheader h
    | http2 => exact hheader h
    | http3 =>
      have hh : uriHost req.uri = some host := h
      simp only [cacheLookupOf, Http3.cacheLookup, hh, Option.getD_some]
  · intro harrival httpsPort
    subst harrival
    have hh : ZaphylProxy.headerHost req = some host := h
    rw [HttpFront.redirectLocation, hh, Option.getD_some]

/-- **The authority's host is derived exactly on a plain arrival.** -/
theorem derives_host_iff {uriHost : Uri → Option Str} (hUri : StripsPort uriHost) {a : Authority} {req : Request}
    {arrival : Arrival} (h : ArrivesFor a req arrival) :
    Derives uriHost req arrival a.host.text ↔ PlainArrival a req arrival := by
  -- by the header, the derived host is the authority cut at its first colon
  have hheader : req.headers.getStr HeaderName.host = some a.text →
      (ZaphylProxy.headerHost req = some a.host.text ↔
        req.headers.get HeaderName.host ≠ none ∧ ¬ a.host.IsIpv6) := by
    intro hget
    rw [headerHost_of_getStr hget, Option.some.injEq]
    constructor
    · exact fun heq => ⟨get_ne_none_of_getStr hget, fun hv6 => before_colon_ne_of_ipv6 hv6 heq⟩
    · exact fun hplain => before_colon_text hplain.2
  have hroute : routeHost uriHost req arrival = some a.host.text ↔ PlainArrival a req arrival := by
    cases arrival with
    | http1 =>
      rw [routeHost_http1, hheader h]
      simp [PlainArrival]
    | http2 =>
      rw [routeHost_http2]
      rcases h.2 with hget | hnone
      · rw [hheader hget]
        simp [PlainArrival]
      · rw [headerHost_of_get_eq_none hnone]
        simp [PlainArrival, hnone]
    | http3 =>
      have huri : req.uri = ⟨some a.text, req.uri.pathAndQuery⟩ := by
        have ha : req.uri.authority = some a.text := h
        rw [← ha]
      have hhost : uriHost req.uri = some a.host.text := by
        rw [huri]
        exact hUri a _
      exact iff_of_true hhost (Or.inl rfl)
  exact ⟨fun hd => hroute.1 hd.route, fun hp => derives_of_routeHost (hroute.2 hp)⟩

/-! ## Hosts are kept apart -/

/-- The request targets a URI can have: rooted, a bare query, or an asterisk. -/
def IsRequestTarget (pathAndQuery : Str) : Prop :=
  pathAndQuery.head? = some '/' ∨ pathAndQuery.head? = some '?' ∨ pathAndQuery = ['*']

theorem not_mem_hostText {h : HostForm} {c : Char} (hc : c = '/' ∨ c = '?') : c ∉ h.text := by
  intro hm
  cases h with
  | named name wf =>
    have := List.all_eq_true.1 wf.2 c hm
    rcases hc with rfl | rfl <;> exact absurd this (by decide)
  | ipv6 address wf =>
    have hbrackets : c ≠ '[' ∧ c ≠ ']' := by rcases hc with rfl | rfl <;> decide
    have haddress : c ∉ address := by
      intro ha
      have := List.all_eq_true.1 wf.2 c ha
      rcases hc with rfl | rfl <;> exact absurd this (by decide)
    have hm' : c ∈ '[' :: address ++ [']'] := hm
    simp [hbrackets, haddress] at hm'

/-- Two hosts followed by request targets give one text only when they are one host. -/
theorem hostText_eq_of_append_eq {h k : HostForm} {p q : Str} (hp : IsRequestTarget p) (hq : IsRequestTarget q)
    (heq : h.text ++ p = k.text ++ q) : h.text = k.text := by
  -- the longer host's rest would start the other's target
  have hrest : ∀ {h k : HostForm} {p q t : Str}, IsRequestTarget p → IsRequestTarget q → k.text = h.text ++ t →
      p = t ++ q → h.text = k.text := by
    intro h k p q t hp hq hk hpt
    cases t with
    | nil => rw [hk, List.append_nil]
    | cons c t =>
      exfalso
      have hmem : c ∈ k.text := by
        rw [hk]
        simp
      rcases hp with hp | hp | hp
      · rw [hpt, List.cons_append, List.head?_cons, Option.some.injEq] at hp
        exact not_mem_hostText (Or.inl hp) hmem
      · rw [hpt, List.cons_append, List.head?_cons, Option.some.injEq] at hp
        exact not_mem_hostText (Or.inr hp) hmem
      · rw [hpt, List.cons_append, List.cons.injEq, List.append_eq_nil_iff] at hp
        obtain ⟨-, -, rfl⟩ := hp
        simp [IsRequestTarget] at hq
  rcases List.append_eq_append_iff.1 heq with ⟨t, hk, hpt⟩ | ⟨t, hh, hqt⟩
  · exact hrest hp hq hk hpt
  · exact (hrest hq hp hh hqt).symm

theorem key_ne_of_host_ne {h k : HostForm} (hne : h.text ≠ k.text) {req req' : Request} {l m : CacheLookup}
    (hl : cacheLookup h.text req = some l) (hm : cacheLookup k.text req' = some m)
    (hp : IsRequestTarget req.uri.pathAndQueryOr) (hq : IsRequestTarget req'.uri.pathAndQueryOr) : l.key ≠ m.key := by
  obtain ⟨-, -, hlk⟩ := cacheLookup_eq_some hl
  obtain ⟨-, -, hmk⟩ := cacheLookup_eq_some hm
  rw [hlk, hmk]
  intro heq
  have hcat := ((cacheKey_eq_iff (unitSep_not_mem_getStr _ _) (unitSep_not_mem_getStr _ _)).1 heq).1
  exact hne (hostText_eq_of_append_eq hp hq hcat)

/-- **One authority, one host, on plain arrivals.**  A request derives its authority's host exactly on a plain
arrival; two plain arrivals for one host and path select one route and one cache key, and for two hosts never one cache
key. -/
theorem one_host_iff_plain (uriHost : Uri → Option Str) (hUri : StripsPort uriHost) (a : Authority) (req : Request)
    (arrival : Arrival) (h : ArrivesFor a req arrival) :
    (Derives uriHost req arrival a.host.text ↔ PlainArrival a req arrival) ∧
    (PlainArrival a req arrival → ∀ b req' arrival', ArrivesFor b req' arrival' → PlainArrival b req' arrival' →
      (a.host.text = b.host.text → req.uri.pathAndQuery = req'.uri.pathAndQuery →
        (∀ router : Router, router.matchRoute (routeHost uriHost req arrival) req.uri.path =
          router.matchRoute (routeHost uriHost req' arrival') req'.uri.path) ∧
        (∀ l m, cacheLookupOf uriHost req arrival = some l → cacheLookupOf uriHost req' arrival' = some m →
          req.headers.getStr HeaderName.acceptEncoding = req'.headers.getStr HeaderName.acceptEncoding →
          l.key = m.key)) ∧
      (a.host.text ≠ b.host.text → IsRequestTarget req.uri.pathAndQueryOr → IsRequestTarget req'.uri.pathAndQueryOr →
        ∀ l m, cacheLookupOf uriHost req arrival = some l → cacheLookupOf uriHost req' arrival' = some m →
          l.key ≠ m.key)) := by
  refine ⟨derives_host_iff hUri h, fun hp b req' arrival' h' hp' => ?_⟩
  have hd := (derives_host_iff hUri h).2 hp
  have hd' := (derives_host_iff hUri h').2 hp'
  refine ⟨fun hhost hpq => ⟨fun router => ?_, fun l m hl hm hae => ?_⟩, fun hne hpq hpq' l m hl hm => ?_⟩
  · have hpath : req.uri.path = req'.uri.path := by rw [Uri.path, Uri.path, hpq]
    rw [hd.route, hd'.route, hhost, hpath]
  · rw [hd.lookup] at hl
    rw [hd'.lookup] at hm
    have htarget : req.uri.pathAndQueryOr = req'.uri.pathAndQueryOr := by
      rw [Uri.pathAndQueryOr, Uri.pathAndQueryOr, hpq]
    rw [(cacheLookup_eq_some hl).2.2, (cacheLookup_eq_some hm).2.2, hhost, htarget, hae]
  · rw [hd.lookup] at hl
    rw [hd'.lookup] at hm
    exact key_ne_of_host_ne hne hl hm hpq hpq'

/-! ## Arrivals that are not plain -/

/-- The host of a URI: what precedes the port, or the bracketed literal. -/
def bracketedHost (u : Uri) : Option Str :=
  u.authority.map (fun a =>
    if a.head? = some '[' then before ']' a ++ [']'] else before ':' a)

theorem bracketedHost_stripsPort : StripsPort bracketedHost := by
  intro a pathAndQuery
  obtain ⟨host, port, digits⟩ := a
  cases host with
  | named name wf =>
    have hhead : ∀ {rest : Str}, (name ++ rest).head? ≠ some '[' := by
      intro rest hr
      cases name with
      | nil => exact absurd rfl wf.1
      | cons c name =>
        rw [List.cons_append, List.head?_cons, Option.some.injEq] at hr
        subst hr
        exact absurd (List.all_eq_true.1 wf.2 '[' List.mem_cons_self) (by decide)
    have htext : ∃ rest, Authority.text ⟨.named name wf, port, digits⟩ = name ++ rest := by
      cases port with
      | none => exact ⟨[], (List.append_nil name).symm⟩
      | some port => exact ⟨':' :: port, rfl⟩
    obtain ⟨rest, hrest⟩ := htext
    have hb : before ':' (Authority.text ⟨.named name wf, port, digits⟩) = name := before_colon_text (fun h => h)
    simp only [bracketedHost, Option.map_some, Option.some.injEq]
    rw [if_neg (by rw [hrest]; exact hhead), hb]
    rfl
  | ipv6 address wf =>
    have hclose : ']' ∉ '[' :: address := by
      rw [List.mem_cons, not_or]
      exact ⟨by decide, fun hm => absurd (List.all_eq_true.1 wf.2 _ hm) (by decide)⟩
    have htext : ∃ rest, Authority.text ⟨.ipv6 address wf, port, digits⟩ = ('[' :: address) ++ ']' :: rest := by
      cases port with
      | none => exact ⟨[], rfl⟩
      | some port => exact ⟨':' :: port, by simp [Authority.text, HostForm.text]⟩
    obtain ⟨rest, hrest⟩ := htext
    simp only [bracketedHost, Option.map_some, Option.some.injEq]
    rw [hrest, if_pos (by rfl), Text.before_append_cons hclose]
    rfl

def siteA : Authority := ⟨.named "a.test".toList (by decide), some "8443".toList, by decide⟩

def siteB : Authority := ⟨.named "b.test".toList (by decide), none, by decide⟩

def siteV6 : Authority := ⟨.ipv6 "2001:db8::1".toList (by decide), none, by decide⟩

def getOverH2 (a : Authority) : Request := ⟨"GET".toList, ⟨some a.text, some ['/']⟩, ⟨[]⟩⟩

theorem siteA_one_host :
    (Derives bracketedHost (getWithHost siteA.text ['/']) .http1 siteA.host.text ↔
      PlainArrival siteA (getWithHost siteA.text ['/']) .http1) ∧
    Derives bracketedHost (getWithHost siteA.text ['/']) .http1 siteA.host.text :=
  have h := one_host_iff_plain bracketedHost bracketedHost_stripsPort siteA (getWithHost siteA.text ['/']) .http1
    (show (getWithHost siteA.text ['/']).headers.getStr HeaderName.host = some siteA.text by decide)
  ⟨h.1, h.1.2 (Or.inr ⟨by decide, fun hv => hv⟩)⟩

/-- **Without a `Host` header two sites share a cache key, and an IPv6 literal is cut.** -/
theorem two_sites_share_a_key :
    ArrivesFor siteA (getOverH2 siteA) .http2 ∧ ArrivesFor siteB (getOverH2 siteB) .http2 ∧
      routeHost bracketedHost (getOverH2 siteA) .http2 = none ∧
      routeHost bracketedHost (getOverH2 siteA) .http3 = some "a.test".toList ∧
      (∃ l m, cacheLookupOf bracketedHost (getOverH2 siteA) .http2 = some l ∧
        cacheLookupOf bracketedHost (getOverH2 siteB) .http2 = some m ∧ l.key = m.key) ∧
      ArrivesFor siteV6 (getWithHost siteV6.text ['/']) .http1 ∧
      routeHost bracketedHost (getWithHost siteV6.text ['/']) .http1 = some "[2001".toList :=
  ⟨⟨rfl, Or.inr rfl⟩, ⟨rfl, Or.inr rfl⟩, rfl, by decide, ⟨_, _, rfl, rfl, by decide⟩,
    show (getWithHost siteV6.text ['/']).headers.getStr HeaderName.host = some siteV6.text by decide, by decide⟩

end Zaphyl
