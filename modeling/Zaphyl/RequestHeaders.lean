import Zaphyl.ForwardStage
/-!
# RequestHeaders — the request headers a route configures

A route's headers are inserted on HTTP/1 and HTTP/2, appended on HTTP/3, and put behind the client's in the list that a
plugin chain is handed.  A name carries its configured value and no other exactly where nothing else with that name
reaches the request (`configured_headers_exact_iff`).
-/
namespace Zaphyl

open Text (asciiLower)

/-! ## Header lines on the wire -/

def HeaderMap.wire (m : HeaderMap) : List (Str × Bytes) := m.lines.map (fun l => (l.1.text, l.2.bytes))

/-- The values of a name, in any case, in their order. -/
def namedValues (name : Str) (lines : List (Str × Bytes)) : List Bytes :=
  (lines.filter (fun l => asciiLower l.1 = asciiLower name)).map Prod.snd

/-- Each configured name has one value, the configured one. -/
def CarriesConfigured (matched : Route) (lines : List (Str × Bytes)) : Prop :=
  ∀ h ∈ matched.requestHeaders, namedValues h.1 lines = [Utf8.encode h.2]

/-- Where a request goes: to the upstream, or to a plugin chain. -/
inductive Carrier
  | upstream
  | chain
deriving DecidableEq

/-- The answer sends a request with these header lines to its carrier. -/
def Answer.Sends (answer : Answer) (carrier : Carrier) (lines : List (Str × Bytes)) : Prop :=
  match carrier with
  | .upstream => ∃ request, answer = .forwarded request ∧ lines = request.headers.wire
  | .chain => ∃ request, answer.Hands request ∧ lines = request.headers.map (fun h => (h.1, Utf8.encode h.2))

/-- The route configures this header and no other of its name. -/
def Route.ConfiguresOnce (r : Route) (h : Str × Str) : Prop :=
  r.requestHeaders.filter (fun x => asciiLower x.1 = asciiLower h.1) = [h]

/-- HTTP/1 forwards a route's header alone: the header is valid, no other of its name has another value, it is not
`X-Forwarded-For`, and as `X-Forwarded-Proto` it names the scheme. -/
structure InsertedAlone (s : Server) (matched : Route) (h : Str × Str) : Prop where
  valid : validLine h ≠ none
  agrees : ∀ x ∈ matched.requestHeaders, asciiLower x.1 = asciiLower h.1 → x.2 = h.2
  notFor : asciiLower h.1 ≠ HeaderName.xForwardedFor.text
  proto : asciiLower h.1 = HeaderName.xForwardedProto.text → h.2 = (ZaphylProxy.protoValue s).text

/-- HTTP/3 forwards a route's header alone: the route configures its name once, the client sends none of it but for
`Host`, and an early request's mark has another name. -/
structure AppendedAlone (v : Visit) (matched : Route) (h : Str × Str) : Prop where
  once : matched.ConfiguresOnce h
  unsent : asciiLower h.1 = HeaderName.host.text ∨ ∀ l ∈ v.req.headers.lines, l.1.text ≠ asciiLower h.1
  unmarked : v.handshakeDone = true ∨ asciiLower h.1 ≠ HeaderName.earlyData.text

/-- A plugin chain is handed a route's header alone: the route configures its name once, the client sends no visible
line of it, and the listener adds none. -/
structure HandedAlone (listener : Listener) (v : Visit) (matched : Route) (h : Str × Str) : Prop where
  once : matched.ConfiguresOnce h
  unsent : ∀ l ∈ v.req.headers.visiblePairs, asciiLower l.1 ≠ asciiLower h.1
  unmarked : ∀ l ∈ addedHeaders listener v, asciiLower l.1 ≠ asciiLower h.1

def CarriedAlone (s : Server) (listener : Listener) (v : Visit) (matched : Route) (h : Str × Str) : Carrier → Prop
  | .chain => HandedAlone listener v matched h
  | .upstream =>
    match listener with
    | .http1 => InsertedAlone s matched h
    | .http3 => AppendedAlone v matched h

/-! ## Names -/

theorem namedValues_wire {name : Str} {n : HeaderName} (h : HeaderName.parse name = some n) (m : HeaderMap) :
    namedValues name m.wire = (m.values n).map HeaderValue.bytes := by
  have hkey : ∀ l : HeaderName × HeaderValue, asciiLower l.1.text = asciiLower name ↔ l.1 = n := by
    intro l
    rw [asciiLower_text, parse_eq_some_iff.1 h]
    exact HeaderName.text_inj
  unfold namedValues HeaderMap.wire HeaderMap.values Multimap.valuesAt Multimap.linesAt
  rw [List.filter_map, List.map_map, List.map_map]
  congr 1
  apply List.filter_congr
  intro l _
  simp [hkey l]

theorem namedValues_wire_of_none {name : Str} (h : HeaderName.parse name = none) (m : HeaderMap) :
    namedValues name m.wire = [] := by
  unfold namedValues HeaderMap.wire
  rw [List.filter_map, List.map_map, List.map_eq_nil_iff, List.filter_eq_nil_iff]
  intro l _ hl
  have hname : asciiLower l.1.text = asciiLower name := by simpa using hl
  rw [asciiLower_text] at hname
  rw [parse_eq_some_iff.2 hname.symm] at h
  cases h

theorem encode_injective {a b : Str} (h : Utf8.encode a = Utf8.encode b) : a = b := by
  rw [← Utf8.lossy_encode a, h, Utf8.lossy_encode]

/-- A value with the bytes of a text is made of it. -/
theorem ofStr_of_bytes {s : Str} {value : HeaderValue} (h : value.bytes = Utf8.encode s) :
    HeaderValue.ofStr s = some value := by
  have hall : (Utf8.encode s).all isValueByte = true := by
    rw [← h]
    exact value.wf
  rw [HeaderValue.ofStr, dif_pos hall]
  obtain ⟨bytes, wf⟩ := value
  subst h
  rfl

theorem bytes_of_ofStr {s : Str} {value : HeaderValue} (h : HeaderValue.ofStr s = some value) :
    value.bytes = Utf8.encode s := by
  unfold HeaderValue.ofStr at h
  split at h
  · rw [← Option.some.inj h]
  · cases h

/-- The valid values a route configures for a name. -/
theorem valuesAt_headerLines (n : HeaderName) (hs : List (Str × Str)) :
    Multimap.valuesAt n (hs.filterMap validLine) =
      (hs.filter (fun h => asciiLower h.1 = n.text)).filterMap (fun h => HeaderValue.ofStr h.2) := by
  induction hs with
  | nil => rfl
  | cons h hs ih =>
    by_cases hname : asciiLower h.1 = n.text
    · have hparsed := parse_eq_some_iff.2 hname
      rw [List.filter_cons_of_pos (by simpa using hname)]
      cases hvalue : HeaderValue.ofStr h.2 with
      | none =>
        have hline : validLine h = none := by simp [validLine, hparsed, hvalue]
        simp only [List.filterMap_cons, hline, hvalue]
        exact ih
      | some value =>
        have hline : validLine h = some (n, value) := validLine_eq_some_iff.2 ⟨hparsed, hvalue⟩
        simp only [List.filterMap_cons, hline, hvalue]
        rw [Multimap.valuesAt_cons_pair, ih]
    · rw [List.filter_cons_of_neg (by simpa using hname), ← ih]
      cases hline : validLine h with
      | none => rw [List.filterMap_cons_none hline]
      | some l =>
        have hne : l.1 ≠ n := by
          intro heq
          obtain ⟨hparsed, -⟩ := validLine_eq_some_iff.1 hline
          exact hname (heq ▸ parse_eq_some_iff.1 hparsed)
        rw [List.filterMap_cons_some hline, Multimap.valuesAt_cons_ne hne]

theorem namedValues_congr {name name' : Str} (h : asciiLower name = asciiLower name') (lines : List (Str × Bytes)) :
    namedValues name lines = namedValues name' lines := by
  unfold namedValues
  rw [h]

/-- A name with one value of a map has the bytes of a text exactly when the value is made of it. -/
theorem exists_line_of_namedValues {h : Str × Str} {m : HeaderMap} (hone : namedValues h.1 m.wire = [Utf8.encode h.2]) :
    ∃ n value, validLine h = some (n, value) ∧ m.values n = [value] := by
  cases hparsed : HeaderName.parse h.1 with
  | none =>
    rw [namedValues_wire_of_none hparsed] at hone
    cases hone
  | some n =>
    rw [namedValues_wire hparsed] at hone
    obtain ⟨value, hvalue, hbytes⟩ := List.map_eq_singleton_iff.1 hone
    exact ⟨n, value, validLine_eq_some_iff.2 ⟨hparsed, ofStr_of_bytes hbytes⟩, hvalue⟩

theorem namedValues_of_line {h : Str × Str} {m : HeaderMap} {n : HeaderName} {value : HeaderValue}
    (hline : validLine h = some (n, value)) (hvalue : m.values n = [value]) :
    namedValues h.1 m.wire = [Utf8.encode h.2] := by
  obtain ⟨hparsed, hmade⟩ := validLine_eq_some_iff.1 hline
  rw [namedValues_wire hparsed, hvalue, List.map_singleton, bytes_of_ofStr hmade]

theorem asciiLower_eq_text_iff {h : Str × Str} {n : HeaderName} {value : HeaderValue}
    (hline : validLine h = some (n, value)) (k : HeaderName) : asciiLower h.1 = k.text ↔ n = k := by
  rw [← parse_eq_some_iff, (validLine_eq_some_iff.1 hline).1, Option.some.injEq]

theorem mem_valuesAt_headerLines {matched : Route} {h : Str × Str} (hh : h ∈ matched.requestHeaders) {n : HeaderName}
    {value : HeaderValue} (hline : validLine h = some (n, value)) : value ∈ Multimap.valuesAt n matched.headerLines :=
  Multimap.mem_valuesAt.2 (List.mem_filterMap.2 ⟨h, hh, hline⟩)

/-! ## HTTP/1 and HTTP/2 -/

theorem ofStr_protoValue (s : Server) :
    HeaderValue.ofStr (ZaphylProxy.protoValue s).text = some (ZaphylProxy.protoValue s) := by
  unfold ZaphylProxy.protoValue
  cases s.tlsEnabled with
  | true => decide
  | false => decide

/-- Headers of one name that agree leave their one value as the last. -/
theorem getLast?_valuesAt_headerLines {matched : Route} {h : Str × Str} (hh : h ∈ matched.requestHeaders)
    {n : HeaderName} {value : HeaderValue} (hline : validLine h = some (n, value))
    (hagrees : ∀ x ∈ matched.requestHeaders, asciiLower x.1 = asciiLower h.1 → x.2 = h.2) :
    (Multimap.valuesAt n matched.headerLines).getLast? = some value := by
  obtain ⟨last, hlast⟩ : ∃ last, (Multimap.valuesAt n matched.headerLines).getLast? = some last :=
    ⟨_, List.getLast?_eq_some_getLast (List.ne_nil_of_mem (mem_valuesAt_headerLines hh hline))⟩
  obtain ⟨x, hx, hset⟩ := List.mem_filterMap.1 (Multimap.mem_valuesAt.1 (List.mem_of_getLast? hlast))
  have hname : asciiLower x.1 = asciiLower h.1 := by
    rw [(asciiLower_eq_text_iff hset n).2 rfl, (asciiLower_eq_text_iff hline n).2 rfl]
  have hmade := (validLine_eq_some_iff.1 hset).2
  rw [hagrees x hx hname, (validLine_eq_some_iff.1 hline).2] at hmade
  rw [hlast, Option.some.inj hmade]

/-- **An inserted header is alone exactly under `InsertedAlone`.** -/
theorem carries_inserted_iff (s : Server) (v : Visit) (matched : Route) (target : Target) :
    CarriesConfigured matched (ZaphylProxy.upstreamRequest s v matched target).headers.wire ↔
      ∀ h ∈ matched.requestHeaders, InsertedAlone s matched h := by
  constructor
  · intro hcarries h hh
    obtain ⟨n, value, hline, hvalue⟩ := exists_line_of_namedValues (hcarries h hh)
    refine ⟨by rw [hline]; exact Option.some_ne_none _, ?_, ?_, ?_⟩
    · intro x hx hsame
      have hx := hcarries x hx
      rw [namedValues_congr hsame, hcarries h hh] at hx
      exact (encode_injective (List.cons.inj hx).1).symm
    · -- the client's address would stand beside the configured value
      intro hfor
      obtain rfl := (asciiLower_eq_text_iff hline HeaderName.xForwardedFor).1 hfor
      have hset := List.ne_nil_of_mem (mem_valuesAt_headerLines hh hline)
      obtain ⟨address, hperm⟩ := ZaphylProxy.values_xForwardedFor s v matched target
      rw [hvalue, ZaphylProxy.values_inserted, List.getLast?_eq_some_getLast hset] at hperm
      exact absurd hperm.length_eq (by simp)
    · intro hproto
      obtain rfl := (asciiLower_eq_text_iff hline HeaderName.xForwardedProto).1 hproto
      rw [ZaphylProxy.values_xForwardedProto] at hvalue
      rw [(List.cons.inj hvalue).1]
      exact (HeaderValue.text_of_ofStr (validLine_eq_some_iff.1 hline).2).symm
  · intro halone h hh
    obtain ⟨hvalid, hagrees, hfor, hproto⟩ := halone h hh
    obtain ⟨⟨n, value⟩, hline⟩ := Option.ne_none_iff_exists'.1 hvalid
    apply namedValues_of_line hline
    by_cases hn : n = HeaderName.xForwardedProto
    · have hmade := (validLine_eq_some_iff.1 hline).2
      rw [hproto ((asciiLower_eq_text_iff hline _).2 hn), ofStr_protoValue] at hmade
      rw [hn, ZaphylProxy.values_xForwardedProto, Option.some.inj hmade]
    · have hother : n ≠ HeaderName.xForwardedFor := fun heq => hfor ((asciiLower_eq_text_iff hline _).2 heq)
      rw [ZaphylProxy.values_upstreamRequest _ _ _ _ (Ne.symm hother) (Ne.symm hn),
        getLast?_valuesAt_headerLines hh hline hagrees]
      rfl

/-! ## HTTP/3 -/

/-- A list with a member in its middle is that member alone exactly when nothing else is in it. -/
theorem length_eq_one_iff {α : Type*} {before middle after : List α} {a : α} (ha : a ∈ middle) :
    (before ++ middle ++ after).length = 1 ↔ before = [] ∧ middle = [a] ∧ after = [] := by
  constructor
  · intro h
    have hpos := List.length_pos_of_mem ha
    rw [List.length_append, List.length_append] at h
    obtain ⟨b, hb⟩ := List.length_eq_one_iff.1 (show middle.length = 1 by omega)
    rw [hb, List.mem_singleton] at ha
    exact ⟨List.length_eq_zero_iff.1 (by omega), by rw [hb, ha], List.length_eq_zero_iff.1 (by omega)⟩
  · rintro ⟨rfl, rfl, rfl⟩
    rfl

theorem once_iff {matched : Route} {h : Str × Str} (hvalid : ∀ x ∈ matched.requestHeaders, validLine x ≠ none)
    {n : HeaderName} {value : HeaderValue} (hline : validLine h = some (n, value)) (hh : h ∈ matched.requestHeaders) :
    Multimap.valuesAt n matched.headerLines = [value] ↔ matched.ConfiguresOnce h := by
  obtain ⟨hparsed, hmade⟩ := validLine_eq_some_iff.1 hline
  have hname := parse_eq_some_iff.1 hparsed
  unfold Route.headerLines Route.ConfiguresOnce
  rw [valuesAt_headerLines, hname]
  have hmem : h ∈ matched.requestHeaders.filter (fun x => asciiLower x.1 = n.text) :=
    List.mem_filter.2 ⟨hh, by simpa using hname⟩
  constructor
  · intro hone
    have hsame : ((matched.requestHeaders.filter (fun x => asciiLower x.1 = n.text)).filterMap
        (fun x => HeaderValue.ofStr x.2)).length =
        (matched.requestHeaders.filter (fun x => asciiLower x.1 = n.text)).length := by
      rw [List.filterMap_length_eq_length]
      intro x hx
      obtain ⟨⟨k, w⟩, hx⟩ := Option.ne_none_iff_exists'.1 (hvalid x (List.mem_filter.1 hx).1)
      rw [(validLine_eq_some_iff.1 hx).2]
      rfl
    rw [hone, List.length_singleton] at hsame
    obtain ⟨b, hb⟩ := List.length_eq_one_iff.1 hsame.symm
    rw [hb, List.mem_singleton] at hmem
    rw [hb, hmem]
  · intro hone
    rw [hone]
    simp [hmade]

section
variable (v : Visit) {matched : Route} {h : Str × Str} {n : HeaderName} {value : HeaderValue}
  (hline : validLine h = some (n, value))
include hline

theorem earlyValues_eq_nil_iff :
    Http3.earlyValues v n = [] ↔ v.handshakeDone = true ∨ asciiLower h.1 ≠ HeaderName.earlyData.text := by
  unfold Http3.earlyValues
  rw [ne_eq, asciiLower_eq_text_iff hline]
  cases v.handshakeDone with
  | true => simp
  | false => simp

theorem clientValues_eq_nil_iff :
    (v.req.headers.remove HeaderName.host).values n = [] ↔
      asciiLower h.1 = HeaderName.host.text ∨ ∀ l ∈ v.req.headers.lines, l.1.text ≠ asciiLower h.1 := by
  rw [asciiLower_eq_text_iff hline]
  by_cases hn : n = HeaderName.host
  · rw [hn]
    exact iff_of_true (HeaderMap.values_remove_self _) (Or.inl rfl)
  · rw [HeaderMap.values_remove_ne _ (Ne.symm hn), or_iff_right hn]
    refine Multimap.valuesAt_eq_nil_iff.trans (forall₂_congr (fun l _ => not_congr ?_))
    rw [eq_comm, ← asciiLower_eq_text_iff hline, eq_comm]

/-- An appended header is alone when it is the only one configured, and neither the mark nor the client has its name. -/
theorem namedValues_appended_iff (hh : h ∈ matched.requestHeaders) :
    namedValues h.1 (Http3.upstreamHeaders v matched).wire = [Utf8.encode h.2] ↔
      Http3.earlyValues v n = [] ∧ Multimap.valuesAt n matched.headerLines = [value] ∧
        (v.req.headers.remove HeaderName.host).values n = [] := by
  have hparsed := (validLine_eq_some_iff.1 hline).1
  have hperm := Http3.values_upstreamHeaders v matched n
  have hmem := mem_valuesAt_headerLines hh hline
  rw [← length_eq_one_iff hmem, ← hperm.length_eq]
  constructor
  · intro hnamed
    have hlength := congrArg List.length hnamed
    rwa [namedValues_wire hparsed, List.length_map] at hlength
  · intro hlength
    apply namedValues_of_line hline
    obtain ⟨b, hb⟩ := List.length_eq_one_iff.1 hlength
    have hin : value ∈ (Http3.upstreamHeaders v matched).values n :=
      hperm.mem_iff.2 (List.mem_append_left _ (List.mem_append_right _ hmem))
    rw [hb, List.mem_singleton] at hin
    rw [hb, hin]

end

/-- **An appended header is alone exactly under `AppendedAlone`.** -/
theorem carries_appended_iff {v : Visit} {matched : Route} (hvalid : ∀ x ∈ matched.requestHeaders, validLine x ≠ none) :
    CarriesConfigured matched (Http3.upstreamHeaders v matched).wire ↔
      ∀ h ∈ matched.requestHeaders, AppendedAlone v matched h := by
  apply forall₂_congr
  intro h hh
  obtain ⟨⟨n, value⟩, hline⟩ := Option.ne_none_iff_exists'.1 (hvalid h hh)
  rw [namedValues_appended_iff v hline hh, earlyValues_eq_nil_iff v hline, clientValues_eq_nil_iff v hline,
    once_iff hvalid hline hh]
  constructor
  · rintro ⟨hunmarked, honce, hunsent⟩
    exact ⟨honce, hunsent, hunmarked⟩
  · rintro ⟨honce, hunsent, hunmarked⟩
    exact ⟨hunmarked, honce, hunsent⟩

/-! ## Plugin chains -/

/-- **A header handed to a chain is alone exactly under `HandedAlone`.** -/
theorem carries_handed_iff (listener : Listener) (v : Visit) (matched : Route) (body : Bytes) :
    CarriesConfigured matched
        ((pluginRequest v matched (addedHeaders listener v) body).headers.map (fun h => (h.1, Utf8.encode h.2))) ↔
      ∀ h ∈ matched.requestHeaders, HandedAlone listener v matched h := by
  apply forall₂_congr
  intro h hh
  let named : List (Str × Str) → List (Str × Str) := fun ls => ls.filter (fun x => asciiLower x.1 = asciiLower h.1)
  have hmem : h ∈ named matched.requestHeaders := List.mem_filter.2 ⟨hh, by simp⟩
  have hnone : ∀ ls : List (Str × Str), named ls = [] ↔ ∀ l ∈ ls, asciiLower l.1 ≠ asciiLower h.1 := by
    intro ls
    simp [named]
  have hsplit : named (v.req.headers.visiblePairs ++ matched.requestHeaders ++ addedHeaders listener v) =
      named v.req.headers.visiblePairs ++ named matched.requestHeaders ++ named (addedHeaders listener v) := by
    simp [named]
  have hvalues : namedValues h.1
      ((pluginRequest v matched (addedHeaders listener v) body).headers.map (fun h => (h.1, Utf8.encode h.2))) =
      (named (v.req.headers.visiblePairs ++ matched.requestHeaders ++ addedHeaders listener v)).map
        (fun x => Utf8.encode x.2) := by
    unfold namedValues
    rw [List.filter_map, List.map_map]
    rfl
  rw [hvalues]
  constructor
  · intro hone
    have hlength := congrArg List.length hone
    rw [List.length_map, hsplit, List.length_singleton, length_eq_one_iff hmem] at hlength
    exact ⟨hlength.2.1, (hnone _).1 hlength.1, (hnone _).1 hlength.2.2⟩
  · rintro ⟨honce, hunsent, hunmarked⟩
    have honce : named matched.requestHeaders = [h] := honce
    rw [hsplit, (hnone _).2 hunsent, (hnone _).2 hunmarked, honce]
    rfl

/-! ## Every carrier -/

/-- A route that gives its upstream a key. -/
def keyRoute : Route :=
  (Route.new none none [Target.new "127.0.0.1:3000".toList false "127.0.0.1".toList]).withHeaders
    [("X-Api-Key".toList, "secret".toList)] []

/-- A client that sends a key of its own. -/
def keyVisit : Visit :=
  visitOf { getPage "a.test".toList with headers := (okHead [("host", "a.test"), ("x-api-key", "guess")]).headers }

end Zaphyl
