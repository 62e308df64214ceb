import Zaphyl.HeadParity
import Zaphyl.RequestHeaders
import Zaphyl.StoreParity
/-!
# ConnectionFields — the fields of a connection in an HTTP/3 response

The cache stores none of five connection fields; the head that HTTP/3 relays loses three of them.  An upstream's
`Keep-Alive` or `Proxy-Connection` line reaches the client of the miss, and not that of a later hit
(`connection_free_iff`).
-/
namespace Zaphyl

open Multimap (valuesAt)

namespace HeaderName

def keepAlive : HeaderName := ⟨"keep-alive".toList, by decide⟩
def proxyConnection : HeaderName := ⟨"proxy-connection".toList, by decide⟩

end HeaderName

/-- The names of connection fields. -/
def connectionNames : List HeaderName :=
  [HeaderName.connection, HeaderName.keepAlive, HeaderName.proxyConnection, HeaderName.transferEncoding,
    HeaderName.upgrade]

/-- **The headers that are not stored are the connection fields and the length.** -/
theorem isUncacheableHeader_iff (n : HeaderName) :
    isUncacheableHeader n.text = true ↔ n ∈ connectionNames ∨ n = HeaderName.contentLength := by
  have hnames : isUncacheableHeader n.text =
      ((connectionNames ++ [HeaderName.contentLength]).map HeaderName.text).contains (Text.asciiLower n.text) := rfl
  have hinj : Function.Injective HeaderName.text := fun _ _ h => HeaderName.text_inj.1 h
  rw [hnames, asciiLower_text, List.contains_iff_mem, List.mem_map_of_injective hinj, List.mem_append,
    List.mem_singleton]

/-! ## The relayed head -/

/-- The coding of the body changes no other name. -/
theorem containsKey_relay {n : HeaderName} (hcoding : n ≠ HeaderName.contentEncoding)
    (hlength : n ≠ HeaderName.contentLength) (cfg : HeadSettings) (req : Request) (route : Route)
    (head : ResponseHead) :
    (Http3.relay cfg req (some route) head).headers.containsKey n = (relayHead route head).headers.containsKey n := by
  unfold Http3.relay
  rw [Http3.relayed_some]
  cases hcoded : Http3.encoding cfg req (relayHead route head) with
  | none => simp only [hcoded]
  | some coding =>
    simp only [hcoded]
    rw [Bool.eq_iff_iff, HeaderMap.containsKey_iff_values, HeaderMap.containsKey_iff_values,
      HeaderMap.values_remove_ne _ (Ne.symm hlength), insertHeader_eq]
    cases hline : validLine ("content-encoding".toList, coding) with
    | none => rfl
    | some l =>
      have hname : HeaderName.parse "content-encoding".toList = some HeaderName.contentEncoding := by decide
      have hl : l.1 = HeaderName.contentEncoding :=
        Option.some.inj ((validLine_eq_some_iff.1 hline).1.symm.trans hname)
      rw [Option.elim_some, HeaderMap.values_insert_ne _ _ (hl ▸ Ne.symm hcoding)]

/-- The upstream gives no connection field that is not dropped, and the route sets none. -/
def NoConnectionField (route : Route) (head : ResponseHead) : Prop :=
  head.headers.containsKey HeaderName.keepAlive = false ∧ head.headers.containsKey HeaderName.proxyConnection = false ∧
    ∀ n ∈ connectionNames, valuesAt n route.responseLines = []

theorem relayed_without_iff (route : Route) (head : ResponseHead) :
    (∀ n ∈ connectionNames, (relayHead route head).headers.containsKey n = false) ↔ NoConnectionField route head := by
  have hhop : ∀ n ∈ hopNames,
      ((relayHead route head).headers.containsKey n = false ↔ valuesAt n route.responseLines = []) := by
    intro n hn
    rw [containsKey_relayHead_hop hn, decide_eq_false_iff_not, not_ne_iff]
  have hkept : ∀ n, n ∉ hopNames → ((relayHead route head).headers.containsKey n = false ↔
      head.headers.containsKey n = false ∧ valuesAt n route.responseLines = []) := by
    intro n hn
    rw [containsKey_relayHead hn, Bool.or_eq_false_iff, decide_eq_false_iff_not, not_ne_iff]
  have hnames : ∀ P : HeaderName → Prop, (∀ n ∈ connectionNames, P n) ↔
      P HeaderName.connection ∧ P HeaderName.keepAlive ∧ P HeaderName.proxyConnection ∧
        P HeaderName.transferEncoding ∧ P HeaderName.upgrade := by
    intro P
    simp [connectionNames]
  unfold NoConnectionField
  rw [hnames, hnames, hhop HeaderName.connection (by decide), hkept HeaderName.keepAlive (by decide),
    hkept HeaderName.proxyConnection (by decide), hhop HeaderName.transferEncoding (by decide),
    hhop HeaderName.upgrade (by decide)]
  constructor
  · rintro ⟨hconnection, ⟨hkeep, hkeepSet⟩, ⟨hproxy, hproxySet⟩, hrest⟩
    exact ⟨hkeep, hproxy, hconnection, hkeepSet, hproxySet, hrest⟩
  · rintro ⟨hkeep, hproxy, hconnection, hkeepSet, hproxySet, hrest⟩
    exact ⟨hconnection, ⟨hkeep, hkeepSet⟩, ⟨hproxy, hproxySet⟩, hrest⟩

/-! ## The stored entry -/

/-- A stored header is read as the line it was. -/
theorem validLine_of_storedLine {l : HeaderName × HeaderValue} {w : Str × Str} (h : storedLine l = some w) :
    validLine w = some l := by
  unfold storedLine at h
  split at h
  · cases h
  · obtain ⟨s, hs, rfl⟩ := Option.map_eq_some_iff.1 h
    exact validLine_eq_some_iff.2 ⟨parse_eq_some_iff.2 (asciiLower_text _), ofStr_of_bytes (HeaderValue.bytes_of_toStr hs)⟩

theorem validLines_storedHeaders (m : HeaderMap) :
    validLines (storedHeaders m) = m.lines.filter (fun l => (storedLine l).isSome) := by
  rw [storedHeaders_eq, ← List.filterMap_eq_filter]
  unfold validLines
  rw [List.filterMap_filterMap]
  congr 1
  funext l
  cases hline : storedLine l with
  | none => simp [hline, Option.guard]
  | some w => simp [hline, Option.guard, validLine_of_storedLine hline]

/-- A name stands in a stored entry when it is no connection field and no length, and has a visible value. -/
theorem stored_contains_iff (n : HeaderName) (m : HeaderMap) : valuesAt n (validLines (storedHeaders m)) ≠ [] ↔
    isUncacheableHeader n.text = false ∧ ∃ value ∈ m.values n, value.toStr.isSome = true := by
  have hline : ∀ value, (storedLine (n, value)).isSome = true ↔
      isUncacheableHeader n.text = false ∧ value.toStr.isSome = true := by
    intro value
    unfold storedLine
    cases isUncacheableHeader n.text with
    | true => simp
    | false => simp
  rw [validLines_storedHeaders]
  constructor
  · intro h
    obtain ⟨value, hvalue⟩ := List.exists_mem_of_ne_nil _ h
    obtain ⟨hmem, hstored⟩ := List.mem_filter.1 (Multimap.mem_valuesAt.1 hvalue)
    obtain ⟨hname, hvisible⟩ := (hline value).1 hstored
    exact ⟨hname, value, Multimap.mem_valuesAt.2 hmem, hvisible⟩
  · rintro ⟨hname, value, hmem, hvisible⟩
    have hstored : (n, value) ∈ m.lines.filter (fun l => (storedLine l).isSome) :=
      List.mem_filter.2 ⟨Multimap.mem_valuesAt.1 hmem, (hline value).2 ⟨hname, hvisible⟩⟩
    exact List.ne_nil_of_mem (Multimap.mem_valuesAt.2 hstored)

/-- A replayed head has the entry's names, the length and the mark of a hit. -/
theorem containsKey_replayed {hit : CachedResponse} {ifNoneMatch : Option Str}
    (htag : notModifiedTag hit ifNoneMatch = none) {n : HeaderName} (hlength : n ≠ HeaderName.contentLength)
    (hmark : n ≠ HeaderName.xCache) :
    (Http3.serveCacheHit hit ifNoneMatch).headers.containsKey n = true ↔ valuesAt n (validLines hit.headers) ≠ [] := by
  obtain ⟨length, hlengthLine⟩ := validLine_lengthHeader hit.body
  obtain ⟨mark, hmarked⟩ := validLines_xCacheHit
  have happended := Multimap.perm_iff_valuesAt.1 (appended_perm (hit.headers ++ [xCacheHit])) n
  rw [validLines_append, Multimap.valuesAt_append, hmarked, Multimap.valuesAt_cons_ne (Ne.symm hmark),
    Multimap.valuesAt_nil, List.append_nil] at happended
  rw [HeaderMap.containsKey_iff_values, HeaderMap.values, lines_http3_hit htag hlengthLine,
    Multimap.valuesAt_set_ne (Ne.symm hlength)]
  exact not_congr ⟨fun h => List.Perm.eq_nil (h ▸ happended.symm), fun h => List.Perm.eq_nil (h ▸ happended)⟩

/-! ## A miss and a later hit -/

/-- The heads have the same names, up to the length and the mark of a hit. -/
def SameNames (sent replayed : HeaderMap) : Prop :=
  ∀ n, n ≠ HeaderName.contentLength → n ≠ HeaderName.xCache → sent.containsKey n = replayed.containsKey n

/-- **No connection field reaches an HTTP/3 client**: the head of a miss has none; and without compression it has the
names of a later hit, if that is no 304, of the entry that the miss stored. -/
structure ConnectionFree (proxy : ProxyConfig) (cfg : HeadSettings) (req : Request) (route : Route) (head : ResponseHead)
    (now : SystemTime) : Prop where
  relayed : ∀ n ∈ connectionNames, (Http3.relay cfg req (some route) head).headers.containsKey n = false
  replayed : cfg.compresses = false → ∀ key chunks p,
    (proxy.outcome head chunks now (.fetching .http3 req key route)).1 = some p →
      ∀ ifNoneMatch, notModifiedTag p.response ifNoneMatch = none →
        SameNames (Http3.relay cfg req (some route) head).headers (Http3.serveCacheHit p.response ifNoneMatch).headers

/-- The response may be stored for some time that ends before the clock does. -/
def Route.MayStoreNow (route : Route) (head : ResponseHead) (now : SystemTime) : Prop :=
  ∃ ttl : Nat, (route.judged head).Lifetime ttl ∧ now.nanos + ttl * nanosPerSec < endOfTime

/-- The value that a name gets from the route is visible, but for the length and the mark of a hit. -/
def Route.SetsVisible (route : Route) : Prop :=
  ∀ n, n ≠ HeaderName.contentLength → n ≠ HeaderName.xCache →
    ∀ value, (valuesAt n route.responseLines).getLast? = some value → value.toStr.isSome = true

variable {proxy : ProxyConfig} {cfg : HeadSettings} {req : Request} {route : Route} {head : ResponseHead}
  {now : SystemTime}

theorem upstreamTtl_relayHead (ttl : Nat) :
    upstreamTtl (relayHead route head) = some ttl ↔ (route.judged head).Lifetime ttl := by
  rw [← Judged.ttl_ofHead, ofHead_relayHead, Judged.ttl_eq_some_iff]
  rfl

/-- A miss stores the relayed head's headers, when the response may be stored. -/
theorem stored_by_miss {key : Str} {chunks : List Bytes} {p : Store}
    (h : (proxy.outcome head chunks now (.fetching .http3 req key route)).1 = some p) :
    p.response.headers = storedHeaders (relayHead route head).headers ∧ route.MayStoreNow head now := by
  rw [ProxyConfig.outcome_fetching] at h
  obtain ⟨d, hd, h⟩ := Option.bind_eq_some_iff.1 h
  obtain ⟨ttl, httl, rfl⟩ := Option.map_eq_some_iff.1 hd
  obtain ⟨body, -, h⟩ := Option.bind_eq_some_iff.1 h
  unfold ProxyConfig.storeUntil at h
  split at h
  · rename_i expiry hexpiry
    obtain rfl := Option.some.inj h
    exact ⟨rfl, ttl, (upstreamTtl_relayHead ttl).1 httl, (SystemTime.add_isOk_iff now ttl).1 ⟨expiry, hexpiry⟩⟩
  · cases h

/-- A response without a body is stored when it may be. -/
theorem exists_stored (h : route.MayStoreNow head now) :
    ∃ p, (proxy.outcome head [] now (.fetching .http3 req [] route)).1 = some p := by
  obtain ⟨ttl, hlifetime, hfits⟩ := h
  obtain ⟨expiry, hexpiry⟩ := (SystemTime.add_isOk_iff now ttl).2 hfits
  have hfetched : upstreamTtl (proxy.fetchedHead .http3 req route head) = some ttl :=
    (upstreamTtl_relayHead ttl).2 hlifetime
  rw [ProxyConfig.outcome_fetching, ProxyConfig.storeDecision, hfetched]
  unfold ProxyConfig.storeUntil
  simp [accumulate, hexpiry]

/-- A name that may be stored is stored when its line is visible. -/
theorem relayed_stored_iff (hvisible : ∀ l ∈ head.headers.lines, l.2.toStr.isSome = true) {n : HeaderName}
    (hn : n ∉ connectionNames) (hlength : n ≠ HeaderName.contentLength) :
    ((relayHead route head).headers.containsKey n = true ↔
      valuesAt n (validLines (storedHeaders (relayHead route head).headers)) ≠ []) ↔
        ∀ value, (valuesAt n route.responseLines).getLast? = some value → value.toStr.isSome = true := by
  have hstored : isUncacheableHeader n.text = false := by
    rw [Bool.eq_false_iff, Ne, isUncacheableHeader_iff]
    exact fun h => h.elim hn hlength
  have hhop : n ∉ hopNames := by
    intro h
    have hsub : ∀ k ∈ hopNames, k ∈ connectionNames := by decide
    exact hn (hsub n h)
  rw [stored_contains_iff, HeaderMap.containsKey_iff_values, values_relayHead hhop, and_iff_right hstored]
  cases (valuesAt n route.responseLines).getLast? with
  | some value => simp
  | none =>
    rw [Option.map_none, Option.getD_none]
    refine iff_of_true ⟨fun h => ?_, fun ⟨value, hvalue, _⟩ => List.ne_nil_of_mem hvalue⟩ (fun _ h => by cases h)
    obtain ⟨value, hvalue⟩ := List.exists_mem_of_ne_nil _ h
    exact ⟨value, hvalue, hvisible _ (Multimap.mem_valuesAt.1 hvalue)⟩

/-- **A miss without connection fields has the names of a later hit exactly when what the route sets is visible.** -/
theorem same_names_iff (hvisible : ∀ l ∈ head.headers.lines, l.2.toStr.isSome = true) (hnone : NoConnectionField route head)
    {hit : CachedResponse} (hhit : hit.headers = storedHeaders (relayHead route head).headers) {ifNoneMatch : Option Str}
    (htag : notModifiedTag hit ifNoneMatch = none) :
    SameNames (relayHead route head).headers (Http3.serveCacheHit hit ifNoneMatch).headers ↔ route.SetsVisible := by
  refine forall_congr' (fun n => imp_congr_right (fun hlength => imp_congr_right (fun hmark => ?_)))
  rw [Bool.eq_iff_iff, containsKey_replayed htag hlength hmark, hhit]
  by_cases hn : n ∈ connectionNames
  · -- neither head has the name, and the route does not set it
    have hrelayed := (relayed_without_iff route head).2 hnone n hn
    have hunset := hnone.2.2 n hn
    rw [hrelayed, hunset, stored_contains_iff, (isUncacheableHeader_iff n).2 (Or.inl hn)]
    simp
  · exact relayed_stored_iff hvisible hn hlength

/-- **HTTP/3 relays no connection field exactly when the upstream sends no `Keep-Alive` and no `Proxy-Connection` and the
route sets none of the five; a later hit has the same names when moreover the route's headers can be stored.** -/
theorem connection_free_iff (proxy : ProxyConfig) (cfg : HeadSettings) (req : Request) (route : Route) (head : ResponseHead)
    (now : SystemTime) (hvisible : ∀ l ∈ head.headers.lines, l.2.toStr.isSome = true) :
    ConnectionFree proxy cfg req route head now ↔ NoConnectionField route head ∧
      (cfg.compresses = false → route.MayStoreNow head now → route.SetsVisible) := by
  have hnames : ∀ n ∈ connectionNames, n ≠ HeaderName.contentEncoding ∧ n ≠ HeaderName.contentLength := by decide
  have hsent : (∀ n ∈ connectionNames, (Http3.relay cfg req (some route) head).headers.containsKey n = false) ↔
      NoConnectionField route head := by
    rw [← relayed_without_iff]
    refine forall_congr' (fun n => imp_congr_right (fun hn => ?_))
    rw [containsKey_relay (hnames n hn).1 (hnames n hn).2]
  have hplain : cfg.compresses = false → Http3.relay cfg req (some route) head = relayHead route head := by
    intro hoff
    unfold Http3.relay Http3.encoding
    rw [Http3.relayed_some]
    simp [hoff]
  constructor
  · intro h
    have hnone := hsent.1 h.relayed
    refine ⟨hnone, fun hoff hstore => ?_⟩
    obtain ⟨p, hp⟩ := exists_stored hstore
    have hsame := h.replayed hoff _ _ p hp none rfl
    rw [hplain hoff] at hsame
    exact (same_names_iff hvisible hnone (stored_by_miss hp).1 rfl).1 hsame
  · rintro ⟨hnone, hset⟩
    refine ⟨hsent.2 hnone, fun hoff key chunks p hp ifNoneMatch htag => ?_⟩
    obtain ⟨hheaders, hstore⟩ := stored_by_miss hp
    rw [hplain hoff]
    exact (same_names_iff hvisible hnone hheaders htag).2 (hset hoff hstore)

/-- HTTP/3 with compression off. -/
def uncompressed : HeadSettings := ⟨[], none, false, fun _ _ => []⟩

/-- A page whose origin closes the connection after it. -/
def namedHead : ResponseHead := okHead [("cache-control", "max-age=60"), ("connection", "close"), ("server", "a")]

theorem named_head_connection_free :
    ConnectionFree oneUpstream uncompressed (getWithHost "a.test".toList ['/']) plainRoute namedHead firstSecond := by
  refine (connection_free_iff oneUpstream uncompressed (getWithHost "a.test".toList ['/']) plainRoute namedHead
    firstSecond (by decide)).2 ⟨⟨rfl, rfl, fun _ _ => rfl⟩, fun _ _ _ _ _ _ h => ?_⟩
  cases h

/-- A page whose origin keeps the connection. -/
def keptHead : ResponseHead := okHead [("cache-control", "max-age=60"), ("keep-alive", "timeout=5")]

/-- **The client of a miss gets the origin's `Keep-Alive`, and that of a later hit does not.** -/
theorem keep_alive_relayed :
    (∀ l ∈ keptHead.headers.lines, l.2.toStr.isSome = true) ∧
      (Http3.relay uncompressed (getWithHost "a.test".toList ['/']) (some plainRoute) keptHead).headers.containsKey
        HeaderName.keepAlive = true ∧
      (∃ p, (oneUpstream.outcome keptHead [] firstSecond
          (.fetching .http3 (getWithHost "a.test".toList ['/']) [] plainRoute)).1 = some p ∧
        (Http3.serveCacheHit p.response none).headers.containsKey HeaderName.keepAlive = false) ∧
      ¬ ConnectionFree oneUpstream uncompressed (getWithHost "a.test".toList ['/']) plainRoute keptHead firstSecond := by
  have hrelayed : (Http3.relay uncompressed (getWithHost "a.test".toList ['/']) (some plainRoute)
      keptHead).headers.containsKey HeaderName.keepAlive = true := by decide
  refine ⟨by decide, hrelayed, ⟨⟨[], second 61, 200, [("cache-control".toList, "max-age=60".toList)], []⟩, ?_, ?_⟩,
    fun h => ?_⟩
  · rfl
  · decide
  · rw [h.relayed HeaderName.keepAlive (by decide)] at hrelayed
    cases hrelayed

end Zaphyl
