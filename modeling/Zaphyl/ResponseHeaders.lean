import Zaphyl.ContentCoding
import Zaphyl.PluginChain
import Zaphyl.RelayedHead
/-!
# ResponseHeaders — the configured headers on the responses

The response filter of HTTP/1 and HTTP/2 inserts the global headers and the route's into a proxied head.  Every other
head is written by a path of its own, which knows the route's headers (a plugin chain's response, what HTTP/3 relays)
or none (a file, a cached response), and no path but the filter knows the global ones.  So a response carries what is
configured exactly when the lines of its path give it (`configured_headers_carried_iff`).
-/
namespace Zaphyl

open Multimap (valuesAt)

namespace HeaderName

def altSvc : HeaderName := ⟨"alt-svc".toList, by decide⟩
def contentEncoding : HeaderName := ⟨"content-encoding".toList, by decide⟩

end HeaderName

/-- What response heads are written from besides the server: the global headers, the port of HTTP/3, whether HTTP/3
compresses, and the media type of the file that a path names below a root. -/
structure HeadSettings where
  responseHeaders : List (Str × Str)
  http3Port : Option Nat
  compresses : Bool
  mime : Str → Str → Str

/-- What a path writes its head from: the origin's head, a cached response with the client's validator, a file with its
media type, or a plugin chain's response. -/
inductive ResponseSource
  | relayed (head : ResponseHead)
  | cached (hit : CachedResponse) (ifNoneMatch : Option Str)
  | file (mime : Str) (contents : Bytes)
  | plugins (response : PluginResponse)

/-- `append_header`: an invalid name or value is left out. -/
def appendHeader (m : HeaderMap) (h : Str × Str) : HeaderMap :=
  match HeaderName.parse h.1, HeaderValue.ofStr h.2 with
  | some name, some value => m.append name value
  | _, _ => m

/-- `StatusCode::from_u16`. -/
def isStatus (status : UInt16) : Bool := 100 ≤ status && status < 1000

def altSvcText (port : Nat) : Str := "h3=\":".toList ++ (Nat.toDigits 10 port ++ "\"; ma=86400".toList)

def lengthHeader (body : Bytes) : Str × Str := ("content-length".toList, Nat.toDigits 10 body.length)

def xCacheHit : Str × Str := ("x-cache".toList, "HIT".toList)

/-- The tag of an entry that the client's validator names. -/
def notModifiedTag (hit : CachedResponse) (ifNoneMatch : Option Str) : Option Str :=
  ifNoneMatch.bind (fun inm => hit.etag.filter (fun etag => ifNoneMatchSatisfied inm etag))

def routeHeaders (matched : Option Route) : List (Str × Str) := (matched.map Route.responseHeaders).getD []

namespace ZaphylProxy

def responseFilter (cfg : HeadSettings) (matched : Option Route) (head : ResponseHead) : ResponseHead :=
  let configured := (routeHeaders matched).foldl insertHeader (cfg.responseHeaders.foldl insertHeader head.headers)
  { head with
    headers := match cfg.http3Port with
      | some port => insertHeader configured ("alt-svc".toList, altSvcText port)
      | none => configured }

def serveCacheHit (hit : CachedResponse) (ifNoneMatch : Option Str) : Option ResponseHead :=
  match notModifiedTag hit ifNoneMatch with
  | some etag => some ⟨304, insertHeader (insertHeader ⟨[]⟩ ("etag".toList, etag)) xCacheHit⟩
  | none =>
    if isStatus hit.status then
      let stored := hit.headers.foldl insertHeader ⟨[]⟩
      some ⟨hit.status, insertHeader (insertHeader stored (lengthHeader hit.body)) xCacheHit⟩
    else none

def staticHead (mime : Str) (contents : Bytes) : ResponseHead :=
  ⟨200, insertHeader (insertHeader ⟨[]⟩ ("content-type".toList, mime)) (lengthHeader contents)⟩

def pluginHead (matched : Option Route) (response : PluginResponse) : Option ResponseHead :=
  if isStatus response.status then
    let supplied := response.headers.foldl appendHeader ⟨[]⟩
    let configured := (routeHeaders matched).foldl insertHeader supplied
    some ⟨response.status, insertHeader configured (lengthHeader response.body)⟩
  else none

def head (cfg : HeadSettings) (matched : Option Route) : ResponseSource → Option ResponseHead
  | .relayed origin => some (responseFilter cfg matched origin)
  | .cached hit ifNoneMatch => serveCacheHit hit ifNoneMatch
  | .file mime contents => some (staticHead mime contents)
  | .plugins response => pluginHead matched response

end ZaphylProxy

namespace Http3

/-- `response_head`. -/
def responseHead (status : UInt16) (headers : List (Str × Str)) (contentLength : Option Bytes) : ResponseHead :=
  let map := headers.foldl appendHeader ⟨[]⟩
  ⟨if isStatus status then status else 502,
    match contentLength with
    | some body => insertHeader map (lengthHeader body)
    | none => map⟩

def negotiateEncoding (headers : HeaderMap) : Option Str :=
  (headers.getStr HeaderName.acceptEncoding).bind (fun header =>
    ["br".toList, "zstd".toList, "gzip".toList].find? (acceptsCoding header))

/-- The coding of a relayed body, when it is compressed. -/
def encoding (cfg : HeadSettings) (req : Request) (head : ResponseHead) : Option Str :=
  if cfg.compresses && !head.headers.containsKey HeaderName.contentEncoding then negotiateEncoding req.headers else none

/-- The origin's head without hop-by-hop headers, and with the route's own. -/
def relayed (matched : Option Route) (head : ResponseHead) : ResponseHead :=
  { head with headers := (routeHeaders matched).foldl insertHeader (hopNames.foldl HeaderMap.remove head.headers) }

theorem relayed_some (route : Route) (head : ResponseHead) : relayed (some route) head = relayHead route head := rfl

/-- The relayed head, with the coding of its body. -/
def relay (cfg : HeadSettings) (req : Request) (matched : Option Route) (head : ResponseHead) : ResponseHead :=
  let parts := relayed matched head
  match encoding cfg req parts with
  | some coding =>
    { parts with
      headers := (insertHeader parts.headers ("content-encoding".toList, coding)).remove HeaderName.contentLength }
  | none => parts

def serveCacheHit (hit : CachedResponse) (ifNoneMatch : Option Str) : ResponseHead :=
  match notModifiedTag hit ifNoneMatch with
  | some etag => responseHead 304 [("etag".toList, etag), xCacheHit] none
  | none => responseHead hit.status (hit.headers ++ [xCacheHit]) (some hit.body)

def staticHead (mime : Str) (contents : Bytes) : ResponseHead :=
  ⟨200, appendHeader (appendHeader ⟨[]⟩ ("content-type".toList, mime)) (lengthHeader contents)⟩

def pluginHead (matched : Option Route) (response : PluginResponse) : ResponseHead :=
  responseHead response.status (response.headers ++ routeHeaders matched) (some response.body)

def head (cfg : HeadSettings) (req : Request) (matched : Option Route) : ResponseSource → ResponseHead
  | .relayed origin => relay cfg req matched origin
  | .cached hit ifNoneMatch => serveCacheHit hit ifNoneMatch
  | .file mime contents => staticHead mime contents
  | .plugins response => pluginHead matched response

end Http3

/-- The head a listener writes from a source; none where HTTP/1 cannot build it. -/
def ResponseSource.head (source : ResponseSource) (cfg : HeadSettings) (listener : Listener) (req : Request)
    (matched : Option Route) : Option ResponseHead :=
  match listener with
  | .http1 => ZaphylProxy.head cfg matched source
  | .http3 => some (Http3.head cfg req matched source)

/-! ## The lines of a head -/

/-- The lines a path puts in place of others, and those that stand where it puts none. -/
structure HeadLines where
  written : List (HeaderName × HeaderValue)
  below : List (HeaderName × HeaderValue)

namespace HeadLines

def values (lines : HeadLines) (n : HeaderName) : List HeaderValue :=
  ((valuesAt n lines.written).getLast?.map (fun v => [v])).getD (valuesAt n lines.below)

/-- The lines give the name this value alone: it is put last, or none is put and it is the only one below. -/
def Gives (lines : HeadLines) (n : HeaderName) (value : HeaderValue) : Prop :=
  (valuesAt n lines.written).getLast? = some value ∨ valuesAt n lines.written = [] ∧ valuesAt n lines.below = [value]

theorem values_eq_singleton_iff (lines : HeadLines) (n : HeaderName) (value : HeaderValue) :
    lines.values n = [value] ↔ lines.Gives n value := by
  unfold values Gives
  cases hlast : (valuesAt n lines.written).getLast? with
  | none => simp [List.getLast?_eq_none_iff.1 hlast]
  | some last =>
    have hset : valuesAt n lines.written ≠ [] := List.ne_nil_of_mem (List.mem_of_getLast? hlast)
    simp [hset]

end HeadLines

def validLines (headers : List (Str × Str)) : List (HeaderName × HeaderValue) := headers.filterMap validLine

namespace ZaphylProxy

def lines (cfg : HeadSettings) (matched : Option Route) : ResponseSource → HeadLines
  | .relayed origin =>
    let altSvc := (cfg.http3Port.map (fun port => ("alt-svc".toList, altSvcText port))).toList
    ⟨validLines (cfg.responseHeaders ++ (routeHeaders matched ++ altSvc)), origin.headers.lines⟩
  | .cached hit ifNoneMatch =>
    match notModifiedTag hit ifNoneMatch with
    | some etag => ⟨validLines [("etag".toList, etag), xCacheHit], []⟩
    | none => ⟨validLines (hit.headers ++ [lengthHeader hit.body, xCacheHit]), []⟩
  | .file mime contents => ⟨validLines [("content-type".toList, mime), lengthHeader contents], []⟩
  | .plugins response =>
    ⟨validLines (routeHeaders matched ++ [lengthHeader response.body]), validLines response.headers⟩

end ZaphylProxy

namespace Http3

def lines (cfg : HeadSettings) (req : Request) (matched : Option Route) : ResponseSource → HeadLines
  | .relayed origin =>
    let below := (hopNames.foldl HeaderMap.remove origin.headers).lines
    match encoding cfg req (relayed matched origin) with
    | some coding =>
      ⟨Multimap.drop HeaderName.contentLength
          (validLines (routeHeaders matched ++ [("content-encoding".toList, coding)])),
        Multimap.drop HeaderName.contentLength below⟩
    | none => ⟨validLines (routeHeaders matched), below⟩
  | .cached hit ifNoneMatch =>
    match notModifiedTag hit ifNoneMatch with
    | some etag => ⟨[], validLines [("etag".toList, etag), xCacheHit]⟩
    | none => ⟨validLines [lengthHeader hit.body], validLines (hit.headers ++ [xCacheHit])⟩
  | .file mime contents => ⟨[], validLines [("content-type".toList, mime), lengthHeader contents]⟩
  | .plugins response =>
    ⟨validLines [lengthHeader response.body], validLines (response.headers ++ routeHeaders matched)⟩

end Http3

def ResponseSource.lines (source : ResponseSource) (cfg : HeadSettings) (listener : Listener) (req : Request)
    (matched : Option Route) : HeadLines :=
  match listener with
  | .http1 => ZaphylProxy.lines cfg matched source
  | .http3 => Http3.lines cfg req matched source

theorem appendHeader_eq (m : HeaderMap) (h : Str × Str) :
    appendHeader m h = (validLine h).elim m (fun l => m.append l.1 l.2) := by
  unfold appendHeader validLine
  cases HeaderName.parse h.1 with
  | none => rfl
  | some n =>
    cases HeaderValue.ofStr h.2 with
    | none => rfl
    | some v => rfl

/-- Appending headers adds the lines of the valid ones. -/
theorem lines_foldl_appendHeader (hs : List (Str × Str)) (m : HeaderMap) :
    (hs.foldl appendHeader m).lines = Multimap.addAll (validLines hs) m.lines := by
  unfold validLines
  induction hs generalizing m with
  | nil => rfl
  | cons h hs ih =>
    rw [List.foldl_cons, ih, appendHeader_eq]
    cases hline : validLine h with
    | none => rw [List.filterMap_cons_none hline, Option.elim_none]
    | some l =>
      rw [List.filterMap_cons_some hline, Option.elim_some, m.lines_append]
      rfl

/-- **The values of a head that is written over lines**: what is put, or what is below. -/
theorem values_foldl_insertHeader (upper : List (Str × Str)) (m : HeaderMap) (n : HeaderName) :
    (upper.foldl insertHeader m).values n = (⟨validLines upper, m.lines⟩ : HeadLines).values n := by
  rw [HeaderMap.values, lines_foldl_insertHeader, Multimap.valuesAt_setAll]
  rfl

/-- Written over appended headers, up to the order of their values. -/
theorem values_over_appended (upper base : List (Str × Str)) (n : HeaderName) :
    ((upper.foldl insertHeader (base.foldl appendHeader ⟨[]⟩)).values n).Perm
      ((⟨validLines upper, validLines base⟩ : HeadLines).values n) := by
  rw [values_foldl_insertHeader]
  unfold HeadLines.values
  cases (valuesAt n (validLines upper)).getLast? with
  | some last => exact List.Perm.refl _
  | none =>
    have hadded := Multimap.valuesAt_addAll n (validLines base) []
    rw [Multimap.valuesAt_nil, List.append_nil] at hadded
    simp only [Option.map_none, Option.getD_none, lines_foldl_appendHeader]
    exact hadded

theorem ZaphylProxy.values_head {source : ResponseSource} {cfg : HeadSettings} {matched : Option Route}
    {head : ResponseHead} (h : ZaphylProxy.head cfg matched source = some head) (n : HeaderName) :
    (head.headers.values n).Perm ((ZaphylProxy.lines cfg matched source).values n) := by
  cases source with
  | relayed origin =>
    obtain rfl := Option.some.inj h
    have hfolded : (responseFilter cfg matched origin).headers = (cfg.responseHeaders ++ (routeHeaders matched ++
        (cfg.http3Port.map (fun port => ("alt-svc".toList, altSvcText port))).toList)).foldl insertHeader
          origin.headers := by
      rw [List.foldl_append, List.foldl_append]
      unfold responseFilter
      cases cfg.http3Port with
      | none => rfl
      | some port => rfl
    rw [hfolded, values_foldl_insertHeader]
    exact List.Perm.refl _
  | cached hit ifNoneMatch =>
    have h : serveCacheHit hit ifNoneMatch = some head := h
    unfold serveCacheHit at h
    unfold ZaphylProxy.lines
    cases htag : notModifiedTag hit ifNoneMatch with
    | some etag =>
      simp only [htag] at h ⊢
      obtain rfl := Option.some.inj h
      exact values_over_appended [("etag".toList, etag), xCacheHit] [] n
    | none =>
      simp only [htag, Option.ite_none_right_eq_some] at h ⊢
      obtain ⟨-, h⟩ := h
      obtain rfl := Option.some.inj h
      have hover := values_over_appended (hit.headers ++ [lengthHeader hit.body, xCacheHit]) [] n
      rw [List.foldl_append] at hover
      exact hover
  | file mime contents =>
    obtain rfl := Option.some.inj h
    exact values_over_appended [("content-type".toList, mime), lengthHeader contents] [] n
  | plugins response =>
    have h : pluginHead matched response = some head := h
    unfold pluginHead at h
    simp only [Option.ite_none_right_eq_some] at h
    obtain ⟨-, h⟩ := h
    obtain rfl := Option.some.inj h
    have hover := values_over_appended (routeHeaders matched ++ [lengthHeader response.body]) response.headers n
    rw [List.foldl_append] at hover
    exact hover

/-- What is left without a name: its lines are dropped above and below. -/
theorem values_remove_foldl_insertHeader (upper : List (Str × Str)) (m : HeaderMap) (k n : HeaderName) :
    ((upper.foldl insertHeader m).remove k).values n =
      (⟨Multimap.drop k (validLines upper), Multimap.drop k m.lines⟩ : HeadLines).values n := by
  unfold HeadLines.values
  by_cases hn : k = n
  · subst hn
    rw [HeaderMap.values_remove_self, Multimap.valuesAt_drop_self, Multimap.valuesAt_drop_self]
    rfl
  · rw [HeaderMap.values_remove_ne _ hn, values_foldl_insertHeader, Multimap.valuesAt_drop_ne hn,
      Multimap.valuesAt_drop_ne hn]
    rfl

theorem Http3.values_head (source : ResponseSource) (cfg : HeadSettings) (req : Request) (matched : Option Route)
    (n : HeaderName) :
    ((Http3.head cfg req matched source).headers.values n).Perm ((Http3.lines cfg req matched source).values n) := by
  cases source with
  | relayed origin =>
    show ((relay cfg req matched origin).headers.values n).Perm _
    unfold relay Http3.lines
    cases hencoding : encoding cfg req (relayed matched origin) with
    | none =>
      simp only [hencoding]
      rw [relayed, values_foldl_insertHeader]
    | some coding =>
      simp only [hencoding]
      have hremoved := values_remove_foldl_insertHeader (routeHeaders matched ++ [("content-encoding".toList, coding)])
        (hopNames.foldl HeaderMap.remove origin.headers) HeaderName.contentLength n
      rw [List.foldl_append] at hremoved
      rw [← hremoved]
      exact List.Perm.refl _
  | cached hit ifNoneMatch =>
    show ((serveCacheHit hit ifNoneMatch).headers.values n).Perm _
    unfold serveCacheHit Http3.lines
    cases htag : notModifiedTag hit ifNoneMatch with
    | some etag =>
      simp only [htag]
      exact values_over_appended [] [("etag".toList, etag), xCacheHit] n
    | none =>
      simp only [htag]
      exact values_over_appended [lengthHeader hit.body] (hit.headers ++ [xCacheHit]) n
  | file mime contents =>
    exact values_over_appended [] [("content-type".toList, mime), lengthHeader contents] n
  | plugins response =>
    exact values_over_appended [lengthHeader response.body] (response.headers ++ routeHeaders matched) n

/-- **A head has the lines of its path**, up to the order of a name's values. -/
theorem ResponseSource.values_head {source : ResponseSource} {cfg : HeadSettings} {listener : Listener} {req : Request}
    {matched : Option Route} {head : ResponseHead} (h : source.head cfg listener req matched = some head)
    (n : HeaderName) : (head.headers.values n).Perm ((source.lines cfg listener req matched).values n) := by
  cases listener with
  | http1 => exact ZaphylProxy.values_head h n
  | http3 =>
    obtain rfl := Option.some.inj h
    exact Http3.values_head source cfg req matched n

/-- A name has one value in a head exactly when the lines of its path give it. -/
theorem ResponseSource.values_head_eq_iff {source : ResponseSource} {cfg : HeadSettings} {listener : Listener}
    {req : Request} {matched : Option Route} {head : ResponseHead} (h : source.head cfg listener req matched = some head)
    (n : HeaderName) (value : HeaderValue) :
    head.headers.values n = [value] ↔ (source.lines cfg listener req matched).Gives n value := by
  have hperm := source.values_head h n
  rw [← HeadLines.values_eq_singleton_iff]
  constructor
  · intro hvalues
    rw [hvalues] at hperm
    exact (List.singleton_perm.1 hperm).symm
  · intro hvalues
    rw [hvalues] at hperm
    exact List.perm_singleton.1 hperm

/-! ## What is configured -/

/-- The value configured for a name: the route's last, or else the last global one. -/
def HeadSettings.configured (cfg : HeadSettings) (matched : Option Route) (n : HeaderName) : Option HeaderValue :=
  (valuesAt n (validLines (cfg.responseHeaders ++ routeHeaders matched))).getLast?

/-- **The head carries every configured header**, with the route's value before the global one, and no other value. -/
def HeadSettings.Carried (cfg : HeadSettings) (matched : Option Route) (head : ResponseHead) : Prop :=
  ∀ n value, cfg.configured matched n = some value → head.headers.values n = [value]

/-- What a head is written from gives the configured headers: in the response filter, nothing else is configured where
HTTP/3 is advertised; on any other path, its own lines give them. -/
def ResponseSource.GivesConfigured (source : ResponseSource) (cfg : HeadSettings) (listener : Listener) (req : Request)
    (matched : Option Route) : Prop :=
  match listener, source with
  | .http1, .relayed _ => ∀ port value, cfg.http3Port = some port →
      cfg.configured matched HeaderName.altSvc = some value → HeaderValue.ofStr (altSvcText port) = some value
  | _, _ => ∀ n value, cfg.configured matched n = some value →
      (source.lines cfg listener req matched).Gives n value

/-- The advertisement of HTTP/3 is a valid line. -/
theorem validLine_altSvc (port : Nat) : ∃ value, HeaderValue.ofStr (altSvcText port) = some value ∧
    validLine ("alt-svc".toList, altSvcText port) = some (HeaderName.altSvc, value) := by
  have hvisible : ∀ c ∈ altSvcText port, 32 ≤ c.toNat ∧ c.toNat < 127 := by
    have hall : ∀ {t : Str}, t.all (fun c => 32 ≤ c.toNat && c.toNat < 127) = true →
        ∀ c ∈ t, 32 ≤ c.toNat ∧ c.toNat < 127 := by
      intro t ht c hc
      simpa using List.all_eq_true.1 ht c hc
    intro c hc
    rcases List.mem_append.1 hc with hc | hc
    · exact hall (by decide) c hc
    · rcases List.mem_append.1 hc with hc | hc
      · exact IpAddr.visible_toDigits 10 port c hc
      · exact hall (by decide) c hc
  obtain ⟨value, hvalue⟩ := HeaderValue.exists_ofStr hvisible
  have hname : HeaderName.parse "alt-svc".toList = some HeaderName.altSvc := by decide
  exact ⟨value, hvalue, validLine_eq_some_iff.2 ⟨hname, hvalue⟩⟩

/-- **The response filter gives what is configured, but for another advertisement of HTTP/3.** -/
theorem relayed_gives_iff (cfg : HeadSettings) (req : Request) (matched : Option Route) (origin : ResponseHead) :
    (∀ n value, cfg.configured matched n = some value →
        (ResponseSource.lines (.relayed origin) cfg .http1 req matched).Gives n value) ↔
      (ResponseSource.relayed origin).GivesConfigured cfg .http1 req matched := by
  have hwritten : ∀ n, (valuesAt n (ResponseSource.lines (.relayed origin) cfg .http1 req matched).written).getLast? =
      (valuesAt n (validLines (cfg.http3Port.map (fun port =>
        ("alt-svc".toList, altSvcText port))).toList)).getLast?.or (cfg.configured matched n) := by
    intro n
    show (valuesAt n (validLines (_ ++ (_ ++ _)))).getLast? = _
    unfold HeadSettings.configured validLines
    rw [← List.append_assoc, List.filterMap_append, Multimap.valuesAt_append, List.getLast?_append]
  unfold ResponseSource.GivesConfigured
  simp only
  cases hport : cfg.http3Port with
  | none =>
    refine iff_of_true (fun n value hvalue => Or.inl ?_) (fun port value h => (by cases h))
    rw [hwritten, hport, hvalue]
    rfl
  | some port =>
    obtain ⟨advertised, htext, hline⟩ := validLine_altSvc port
    have hadvertised : validLines ((some port).map (fun port => ("alt-svc".toList, altSvcText port))).toList =
        [(HeaderName.altSvc, advertised)] := List.filterMap_cons_some hline
    rw [hport, hadvertised] at hwritten
    constructor
    · intro h port' value hsame hvalue
      obtain rfl := Option.some.inj hsame
      rw [htext]
      have hlast := hwritten HeaderName.altSvc
      rw [Multimap.valuesAt_cons_pair] at hlast
      rcases h HeaderName.altSvc value hvalue with hgiven | ⟨hnone, -⟩
      · exact hlast.symm.trans hgiven
      · rw [hnone] at hlast
        cases hlast
    · intro h n value hvalue
      left
      rw [hwritten]
      by_cases hn : HeaderName.altSvc = n
      · subst hn
        rw [Multimap.valuesAt_cons_pair]
        exact htext.symm.trans (h port value rfl hvalue)
      · rw [Multimap.valuesAt_cons_ne hn, Multimap.valuesAt_nil, hvalue]
        rfl

theorem nodup_validLines_pair {a b : Str × Str} (h : HeaderName.parse a.1 ≠ HeaderName.parse b.1) :
    ((validLines [a, b]).map Prod.fst).Nodup := by
  unfold validLines
  cases ha : validLine a with
  | none =>
    cases hb : validLine b with
    | none => simp [ha, hb]
    | some line => simp [ha, hb]
  | some line =>
    cases hb : validLine b with
    | none => simp [ha, hb]
    | some line' =>
      have hne : line.1 ≠ line'.1 := by
        intro hsame
        apply h
        rw [(validLine_eq_some_iff.1 ha).1, (validLine_eq_some_iff.1 hb).1, hsame]
      simp [ha, hb, hne]

/-- **A file is sent with the media type and the length, and nothing else that is configured.** -/
theorem file_gives_iff (cfg : HeadSettings) (listener : Listener) (req : Request) (matched : Option Route) (mime : Str)
    (contents : Bytes) :
    (ResponseSource.file mime contents).GivesConfigured cfg listener req matched ↔
      ∀ n value, cfg.configured matched n = some value →
        (n, value) ∈ validLines [("content-type".toList, mime), lengthHeader contents] := by
  have hnames : HeaderName.parse "content-type".toList ≠ HeaderName.parse "content-length".toList := by decide
  have hdistinct : ((validLines [("content-type".toList, mime), lengthHeader contents]).map Prod.fst).Nodup :=
    nodup_validLines_pair hnames
  have hgives : ∀ n value, (ResponseSource.lines (.file mime contents) cfg listener req matched).Gives n value ↔
      (n, value) ∈ validLines [("content-type".toList, mime), lengthHeader contents] := by
    intro n value
    have hsingle := Multimap.valuesAt_eq_singleton_iff hdistinct n value
    cases listener with
    | http1 =>
      constructor
      · rintro (hlast | ⟨-, hbelow⟩)
        · exact Multimap.mem_valuesAt.1 (List.mem_of_getLast? hlast)
        · cases hbelow
      · intro hmem
        left
        show (valuesAt n (validLines _)).getLast? = some value
        rw [hsingle.2 hmem]
        rfl
    | http3 =>
      constructor
      · rintro (hlast | ⟨-, hbelow⟩)
        · cases hlast
        · exact hsingle.1 hbelow
      · exact fun hmem => Or.inr ⟨rfl, hsingle.2 hmem⟩
  unfold ResponseSource.GivesConfigured
  cases listener with
  | http1 => exact forall_congr' (fun n => forall_congr' (fun value => imp_congr_right (fun _ => hgives n value)))
  | http3 => exact forall_congr' (fun n => forall_congr' (fun value => imp_congr_right (fun _ => hgives n value)))

/-- **What HTTP/3 relays uncompressed carries the route's headers, and a global one only if the origin sent it.** -/
theorem http3_relayed_gives_iff {cfg : HeadSettings} {req : Request} {matched : Option Route} {origin : ResponseHead}
    (h : Http3.encoding cfg req (Http3.relayed matched origin) = none) :
    (ResponseSource.relayed origin).GivesConfigured cfg .http3 req matched ↔
      ∀ n value, valuesAt n (validLines (routeHeaders matched)) = [] →
        (valuesAt n (validLines cfg.responseHeaders)).getLast? = some value →
        (hopNames.foldl HeaderMap.remove origin.headers).values n = [value] := by
  have hlines : ResponseSource.lines (.relayed origin) cfg .http3 req matched =
      ⟨validLines (routeHeaders matched), (hopNames.foldl HeaderMap.remove origin.headers).lines⟩ := by
    simp only [ResponseSource.lines, Http3.lines, h]
  have hconfigured : ∀ n, cfg.configured matched n = ((valuesAt n (validLines (routeHeaders matched))).getLast?).or
      (valuesAt n (validLines cfg.responseHeaders)).getLast? := by
    intro n
    unfold HeadSettings.configured validLines
    rw [List.filterMap_append, Multimap.valuesAt_append, List.getLast?_append]
  unfold ResponseSource.GivesConfigured
  simp only [hlines, hconfigured]
  refine forall_congr' (fun n => forall_congr' (fun value => ?_))
  unfold HeadLines.Gives
  cases hroute : (valuesAt n (validLines (routeHeaders matched))).getLast? with
  | none =>
    have hunset := List.getLast?_eq_none_iff.1 hroute
    simp only [hunset, Option.none_or, true_and, true_imp_iff, reduceCtorEq, false_or]
    exact Iff.rfl
  | some last =>
    -- the route's value is the configured one
    refine iff_of_true (fun hvalue => Or.inl hvalue) (fun hunset => ?_)
    rw [hunset] at hroute
    cases hroute

/-- A head carries what is configured exactly when what it is written from gives it. -/
theorem carried_iff {source : ResponseSource} {cfg : HeadSettings} {listener : Listener} {req : Request}
    {matched : Option Route} {head : ResponseHead} (h : source.head cfg listener req matched = some head) :
    cfg.Carried matched head ↔ source.GivesConfigured cfg listener req matched := by
  have hlines : cfg.Carried matched head ↔ ∀ n value, cfg.configured matched n = some value →
      (source.lines cfg listener req matched).Gives n value :=
    forall_congr' (fun n => forall_congr' (fun value => imp_congr_right (fun _ => source.values_head_eq_iff h n value)))
  rw [hlines]
  cases listener with
  | http3 => exact Iff.rfl
  | http1 =>
    cases source with
    | relayed origin => exact relayed_gives_iff cfg req matched origin
    | cached hit ifNoneMatch => exact Iff.rfl
    | file mime contents => exact Iff.rfl
    | plugins response => exact Iff.rfl

/-! ## The responses of a server -/

/-- What the head of an answer is written from, unless the answer is an error: `w` runs the plugins. -/
def Answer.source (s : Server) (cfg : HeadSettings) (w : PluginWorld) (listener : Listener) (v : Visit)
    (matched : Option Route) : Answer → Option ResponseSource
  | .forwarded request => (v.origin request).map (fun a => .relayed (match listener with
      | .http1 => s.proxy.compressor.apply v.req a.1
      | .http3 => a.1))
  | .cached hit ifNoneMatch => some (.cached hit ifNoneMatch)
  | .file contents => matched.bind (fun route => route.staticDir.bind (fun root => contents.map (fun contents =>
      .file (cfg.mime root ((route.rewritePath v.req.uri.path).getD v.req.uri.path)) contents)))
  | .plugins chain request host target =>
    s.plugins.bind (fun plugins => (plugins.run w chain request host target).response.map .plugins)
  | .refused _ => none
  | .noTarget => none
  | .failed => none
  | .panicked _ => none

/-- The head a request is answered with. -/
def Server.headSent (s : Server) (cfg : HeadSettings) (w : PluginWorld) (listener : Listener) (v : Visit) :
    Option ResponseHead :=
  let matched := s.proxy.upstreamRoute listener v.req
  ((s.handle listener v).answer.source s cfg w listener v matched).bind (fun source =>
    source.head cfg listener v.req matched)

/-- A frame policy for every response, and HTTP/3 on port 443. -/
def framePolicy : HeadSettings :=
  ⟨[("X-Frame-Options".toList, "DENY".toList)], some 443, false, fun _ _ => "text/html".toList⟩

/-- No plugin loads. -/
def noPlugins : PluginWorld := ⟨fun _ => none, fun _ => false, fun _ => none⟩

/-- A server of one route with a document root. -/
def filesServer : Server := runningServer ⟨[(Route.new none none []).withStatic "/var/www/app".toList]⟩

def policyVisit : Visit := visitOf (getPage "a.test".toList)

/-- The page with an origin that has a frame policy of its own. -/
def framedVisit : Visit := { policyVisit with origin := fun _ => some (okHead [("x-frame-options", "ALLOW")], []) }

end Zaphyl
