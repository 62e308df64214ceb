import Zaphyl.ResponseHeaders
/-!
# HeadParity — one response, two writers

Both listeners write the head of a cached response and of a plugin chain's response from a list of headers.  HTTP/1 and
HTTP/2 insert an entry's headers, one line a name, where HTTP/3 appends them; and they insert the route's headers over a
plugin's, where HTTP/3 appends those too.  Each difference shows exactly on the names that have more than one value
(`hit_replays_stored_iff`, `plugin_heads_alike_iff`).
-/
namespace Zaphyl

open Multimap (valuesAt)

namespace HeaderName

def xCache : HeaderName := ⟨"x-cache".toList, by decide⟩

end HeaderName

/-! ## The lines every writer adds -/

theorem validLine_lengthHeader (body : Bytes) :
    ∃ value, validLine (lengthHeader body) = some (HeaderName.contentLength, value) := by
  obtain ⟨value, hvalue⟩ := HeaderValue.exists_ofStr (IpAddr.visible_toDigits 10 body.length)
  have hname : HeaderName.parse "content-length".toList = some HeaderName.contentLength := by decide
  exact ⟨value, validLine_eq_some_iff.2 ⟨hname, hvalue⟩⟩

theorem validLine_xCacheHit : ∃ value, validLine xCacheHit = some (HeaderName.xCache, value) := by
  obtain ⟨value, hvalue⟩ := HeaderValue.exists_ofStr (s := "HIT".toList) (by simp)
  have hname : HeaderName.parse "x-cache".toList = some HeaderName.xCache := by decide
  exact ⟨value, validLine_eq_some_iff.2 ⟨hname, hvalue⟩⟩

theorem validLines_xCacheHit : ∃ value, validLines [xCacheHit] = [(HeaderName.xCache, value)] := by
  obtain ⟨value, hvalue⟩ := validLine_xCacheHit
  refine ⟨value, ?_⟩
  unfold validLines
  rw [List.filterMap_cons_some hvalue, List.filterMap_nil]

theorem validLines_append (a b : List (Str × Str)) : validLines (a ++ b) = validLines a ++ validLines b :=
  List.filterMap_append

theorem inserted_perm_iff (headers : List (Str × Str)) :
    (headers.foldl insertHeader ⟨[]⟩).lines.Perm (validLines headers) ↔ ((validLines headers).map Prod.fst).Nodup := by
  rw [lines_foldl_insertHeader]
  exact Multimap.setAll_nil_perm_iff

theorem appended_perm (headers : List (Str × Str)) :
    (headers.foldl appendHeader ⟨[]⟩).lines.Perm (validLines headers) := by
  rw [lines_foldl_appendHeader]
  have h := Multimap.addAll_perm (validLines headers) []
  rwa [List.append_nil] at h

theorem lines_insertHeader {h : Str × Str} {name : HeaderName} {value : HeaderValue}
    (hline : validLine h = some (name, value)) (m : HeaderMap) :
    (insertHeader m h).lines = Multimap.set name value m.lines := by
  rw [insertHeader_eq, hline, Option.elim_some, HeaderMap.lines_insert]

/-! ## A cached response -/

/-- The lines of an entry, with its length and the mark of a hit. -/
def replayedLines (hit : CachedResponse) : List (HeaderName × HeaderValue) :=
  validLines (hit.headers ++ [lengthHeader hit.body, xCacheHit])

/-- **A hit replays the stored headers.**  A head that is written for the entry, and not for the bodyless 304 that the
client's validator asks for, has the stored lines as a multiset with the length and the mark of a hit; and the two
listeners' heads for one hit have the same lines. -/
structure ReplaysStored (hit : CachedResponse) (ifNoneMatch : Option Str) : Prop where
  http1 : notModifiedTag hit ifNoneMatch = none → ∀ head, ZaphylProxy.serveCacheHit hit ifNoneMatch = some head →
    head.headers.lines.Perm (replayedLines hit)
  http3 : notModifiedTag hit ifNoneMatch = none →
    (Http3.serveCacheHit hit ifNoneMatch).headers.lines.Perm (replayedLines hit)
  alike : ∀ head, ZaphylProxy.serveCacheHit hit ifNoneMatch = some head →
    head.headers.lines.Perm (Http3.serveCacheHit hit ifNoneMatch).headers.lines

/-- No stored header is a length; and where HTTP/1 can write the status, no two have one name and none is the mark of a
hit. -/
def StoredDistinct (hit : CachedResponse) : Prop :=
  (∀ l ∈ validLines hit.headers, l.1 ≠ HeaderName.contentLength) ∧
    (isStatus hit.status = true → ((validLines hit.headers).map Prod.fst).Nodup ∧
      ∀ l ∈ validLines hit.headers, l.1 ≠ HeaderName.xCache)

/-- The names of the replayed lines are distinct when those stored are and none is a line the writer adds. -/
theorem nodup_replayedLines_iff (hit : CachedResponse) : ((replayedLines hit).map Prod.fst).Nodup ↔
    ((validLines hit.headers).map Prod.fst).Nodup ∧
      (∀ l ∈ validLines hit.headers, l.1 ≠ HeaderName.contentLength) ∧
      ∀ l ∈ validLines hit.headers, l.1 ≠ HeaderName.xCache := by
  obtain ⟨length, hlength⟩ := validLine_lengthHeader hit.body
  obtain ⟨mark, hmarked⟩ := validLines_xCacheHit
  have hadded : validLines [lengthHeader hit.body, xCacheHit] =
      [(HeaderName.contentLength, length), (HeaderName.xCache, mark)] := by
    rw [← hmarked]
    exact List.filterMap_cons_some hlength
  have hne : HeaderName.contentLength ≠ HeaderName.xCache := by decide
  unfold replayedLines
  rw [validLines_append, hadded, List.map_append, List.nodup_append]
  simp only [List.map_cons, List.map_nil, List.mem_map, List.mem_cons, List.not_mem_nil, or_false,
    List.nodup_cons, List.nodup_nil, hne, not_false_eq_true, and_true, true_and]
  constructor
  · rintro ⟨hnodup, hadds⟩
    exact ⟨hnodup, fun l hl => hadds _ ⟨l, hl, rfl⟩ _ (Or.inl rfl), fun l hl => hadds _ ⟨l, hl, rfl⟩ _ (Or.inr rfl)⟩
  · rintro ⟨hnodup, hlengths, hmarks⟩
    refine ⟨hnodup, ?_⟩
    rintro _ ⟨l, hl, rfl⟩ _ (rfl | rfl)
    · exact hlengths l hl
    · exact hmarks l hl

theorem http1_replays_iff {hit : CachedResponse} {ifNoneMatch : Option Str} {head : ResponseHead}
    (htag : notModifiedTag hit ifNoneMatch = none) (h : ZaphylProxy.serveCacheHit hit ifNoneMatch = some head) :
    head.headers.lines.Perm (replayedLines hit) ↔ ((replayedLines hit).map Prod.fst).Nodup := by
  unfold ZaphylProxy.serveCacheHit at h
  simp only [htag, Option.ite_none_right_eq_some] at h
  obtain ⟨-, h⟩ := h
  obtain rfl := Option.some.inj h
  have hinserted := inserted_perm_iff (hit.headers ++ [lengthHeader hit.body, xCacheHit])
  rw [List.foldl_append] at hinserted
  exact hinserted

/-- HTTP/3 writes a hit's length over its other lines. -/
theorem lines_http3_hit {hit : CachedResponse} {ifNoneMatch : Option Str} {length : HeaderValue}
    (htag : notModifiedTag hit ifNoneMatch = none)
    (hlength : validLine (lengthHeader hit.body) = some (HeaderName.contentLength, length)) :
    (Http3.serveCacheHit hit ifNoneMatch).headers.lines =
      Multimap.set HeaderName.contentLength length ((hit.headers ++ [xCacheHit]).foldl appendHeader ⟨[]⟩).lines := by
  unfold Http3.serveCacheHit
  simp only [htag]
  exact lines_insertHeader hlength _

theorem http3_replays_iff {hit : CachedResponse} {ifNoneMatch : Option Str}
    (htag : notModifiedTag hit ifNoneMatch = none) :
    (Http3.serveCacheHit hit ifNoneMatch).headers.lines.Perm (replayedLines hit) ↔
      ∀ l ∈ validLines hit.headers, l.1 ≠ HeaderName.contentLength := by
  obtain ⟨length, hlength⟩ := validLine_lengthHeader hit.body
  obtain ⟨mark, hmarked⟩ := validLines_xCacheHit
  have hne : HeaderName.xCache ≠ HeaderName.contentLength := by decide
  have happended := appended_perm (hit.headers ++ [xCacheHit])
  -- the entry's lines with the length before them
  have hreplayed : (replayedLines hit).Perm
      ((HeaderName.contentLength, length) :: ((hit.headers ++ [xCacheHit]).foldl appendHeader ⟨[]⟩).lines) := by
    have hsplit : replayedLines hit = validLines hit.headers ++
        (HeaderName.contentLength, length) :: validLines [xCacheHit] := by
      unfold replayedLines
      rw [validLines_append]
      exact congrArg _ (List.filterMap_cons_some hlength)
    rw [hsplit]
    refine List.perm_middle.trans (List.Perm.cons _ ?_)
    rw [← validLines_append]
    exact happended.symm
  rw [lines_http3_hit htag hlength, ← Multimap.valuesAt_eq_nil_iff]
  constructor
  · intro hp
    have hnone := Multimap.set_perm_iff.1 (hp.trans hreplayed)
    rw [Multimap.valuesAt_eq_nil_iff]
    intro l hl
    exact hnone l (happended.mem_iff.2 (by rw [validLines_append]; exact List.mem_append_left _ hl))
  · intro hnone
    refine (Multimap.set_perm_iff.2 (fun l hl => ?_)).trans hreplayed.symm
    have hl := happended.mem_iff.1 hl
    rw [validLines_append, hmarked] at hl
    rcases List.mem_append.1 hl with hl | hl
    · exact Multimap.valuesAt_eq_nil_iff.1 hnone l hl
    · rw [List.mem_singleton.1 hl]
      exact hne

/-- The two listeners' 304 has the same lines. -/
theorem notModified_heads_alike {hit : CachedResponse} {ifNoneMatch : Option Str} {etag : Str} {head : ResponseHead}
    (htag : notModifiedTag hit ifNoneMatch = some etag) (h : ZaphylProxy.serveCacheHit hit ifNoneMatch = some head) :
    head.headers.lines.Perm (Http3.serveCacheHit hit ifNoneMatch).headers.lines := by
  have hnames : HeaderName.parse "etag".toList ≠ HeaderName.parse "x-cache".toList := by decide
  have hinserted := (inserted_perm_iff [("etag".toList, etag), xCacheHit]).2 (nodup_validLines_pair hnames)
  unfold ZaphylProxy.serveCacheHit at h
  unfold Http3.serveCacheHit
  simp only [htag] at h ⊢
  obtain rfl := Option.some.inj h
  exact hinserted.trans (appended_perm _).symm

/-- **A hit replays the stored headers exactly when it is answered with a 304 or no stored header is repeated or
added.**  HTTP/3 needs no stored length; HTTP/1 and HTTP/2 distinct names, none of which is the mark of a hit. -/
theorem hit_replays_stored_iff (hit : CachedResponse) (ifNoneMatch : Option Str) :
    ReplaysStored hit ifNoneMatch ↔ notModifiedTag hit ifNoneMatch ≠ none ∨ StoredDistinct hit := by
  cases htag : notModifiedTag hit ifNoneMatch with
  | some etag =>
    refine iff_of_true ⟨fun h => ?_, fun h => ?_, fun head => notModified_heads_alike htag⟩ (Or.inl (by simp))
    · rw [htag] at h; cases h
    · rw [htag] at h; cases h
  | none =>
    rw [or_iff_right (fun h => h rfl)]
    have hwritten : isStatus hit.status = true → ∃ head, ZaphylProxy.serveCacheHit hit ifNoneMatch = some head := by
      intro hstatus
      unfold ZaphylProxy.serveCacheHit
      simp only [htag, if_pos hstatus]
      exact ⟨_, rfl⟩
    have hstatus : ∀ head, ZaphylProxy.serveCacheHit hit ifNoneMatch = some head → isStatus hit.status = true := by
      intro head h
      unfold ZaphylProxy.serveCacheHit at h
      simp only [htag, Option.ite_none_right_eq_some] at h
      exact h.1
    constructor
    · intro h
      refine ⟨(http3_replays_iff htag).1 (h.http3 htag), fun hs => ?_⟩
      obtain ⟨head, hhead⟩ := hwritten hs
      have hnodup := (nodup_replayedLines_iff hit).1 ((http1_replays_iff htag hhead).1 (h.http1 htag head hhead))
      exact ⟨hnodup.1, hnodup.2.2⟩
    · intro h
      have hhttp1 : ∀ head, ZaphylProxy.serveCacheHit hit ifNoneMatch = some head →
          head.headers.lines.Perm (replayedLines hit) := by
        intro head hhead
        have hdistinct := h.2 (hstatus head hhead)
        exact (http1_replays_iff htag hhead).2 ((nodup_replayedLines_iff hit).2 ⟨hdistinct.1, h.1, hdistinct.2⟩)
      have hhttp3 := (http3_replays_iff htag).2 h.1
      exact ⟨fun _ => hhttp1, fun _ => hhttp3, fun head hhead => (hhttp1 head hhead).trans hhttp3.symm⟩

/-- An entry with two links. -/
def linkedPage : CachedResponse := ⟨200, [("link".toList, "</a.css>".toList), ("link".toList, "</b.js>".toList)], []⟩

/-- **Of two stored links HTTP/1 sends one, and HTTP/3 both.** -/
theorem second_link_lost :
    ¬ ReplaysStored linkedPage none ∧
      (ZaphylProxy.serveCacheHit linkedPage none).map (fun head => head.headers.lines.length) = some 3 ∧
      (Http3.serveCacheHit linkedPage none).headers.lines.length = 4 := by
  refine ⟨fun h => ?_, by decide, by decide⟩
  have hlength := (h.alike _ rfl).length_eq
  revert hlength
  decide

/-! ## A plugin chain's response -/

/-- The lines a route sets. -/
def configuredLines (matched : Option Route) : List (HeaderName × HeaderValue) := validLines (routeHeaders matched)

/-- **A plugin chain's response looks the same on both listeners**: one status, the same lines, and a configured header
alone under its name.  The length is the body's on both. -/
structure PluginHeadsAlike (matched : Option Route) (response : PluginResponse) : Prop where
  alike : ∃ head, ZaphylProxy.pluginHead matched response = some head ∧
    head.status = (Http3.pluginHead matched response).status ∧
    head.headers.lines.Perm (Http3.pluginHead matched response).headers.lines
  configured_alone : ∀ n value, n ≠ HeaderName.contentLength →
    (valuesAt n (configuredLines matched)).getLast? = some value →
    (∀ head, ZaphylProxy.pluginHead matched response = some head → head.headers.values n = [value]) ∧
      (Http3.pluginHead matched response).headers.values n = [value]

/-- A last value alone is all the values exactly when there is no other. -/
theorem last_perm_iff {α : Type} (supplied configured : List α) :
    ((configured.getLast?.map (fun v => [v])).getD supplied).Perm (supplied ++ configured) ↔
      configured = [] ∨ (supplied = [] ∧ configured.length = 1) := by
  cases hlast : configured.getLast? with
  | none =>
    rw [List.getLast?_eq_none_iff.1 hlast, List.append_nil]
    exact iff_of_true (List.Perm.refl _) (Or.inl rfl)
  | some v =>
    have hne : configured ≠ [] := by
      rintro rfl
      cases hlast
    rw [or_iff_right hne, Option.map_some, Option.getD_some]
    constructor
    · intro hp
      have hlength := hp.length_eq
      have hpos := List.length_pos_iff.2 hne
      rw [List.length_singleton, List.length_append] at hlength
      exact ⟨List.length_eq_zero_iff.1 (by omega), by omega⟩
    · rintro ⟨rfl, hone⟩
      obtain ⟨w, rfl⟩ := List.length_eq_one_iff.1 hone
      cases hlast
      exact List.Perm.refl _

/-- The values of a name in HTTP/1's head, but for the length: the last one configured, or those supplied. -/
theorem values_http1_plugin {matched : Option Route} {response : PluginResponse} {head : ResponseHead}
    (h : ZaphylProxy.pluginHead matched response = some head) {n : HeaderName} (hn : n ≠ HeaderName.contentLength) :
    (head.headers.values n).Perm (((valuesAt n (configuredLines matched)).getLast?.map (fun v => [v])).getD
      (valuesAt n (validLines response.headers))) := by
  obtain ⟨length, hlength⟩ := validLine_lengthHeader response.body
  unfold ZaphylProxy.pluginHead at h
  simp only [Option.ite_none_right_eq_some] at h
  obtain ⟨-, h⟩ := h
  obtain rfl := Option.some.inj h
  have hlines := lines_insertHeader hlength
    ((routeHeaders matched).foldl insertHeader (response.headers.foldl appendHeader ⟨[]⟩))
  rw [HeaderMap.values, hlines, Multimap.valuesAt_set_ne (Ne.symm hn)]
  exact values_over_appended (routeHeaders matched) response.headers n

/-- The values of a name in HTTP/3's head, but for the length: those supplied and those configured. -/
theorem values_http3_plugin (matched : Option Route) (response : PluginResponse) {n : HeaderName}
    (hn : n ≠ HeaderName.contentLength) :
    ((Http3.pluginHead matched response).headers.values n).Perm
      (valuesAt n (validLines response.headers) ++ valuesAt n (configuredLines matched)) := by
  obtain ⟨length, hlength⟩ := validLine_lengthHeader response.body
  have hlines : (Http3.pluginHead matched response).headers.lines = Multimap.set HeaderName.contentLength length
      ((response.headers ++ routeHeaders matched).foldl appendHeader ⟨[]⟩).lines := lines_insertHeader hlength _
  rw [HeaderMap.values, hlines, Multimap.valuesAt_set_ne (Ne.symm hn)]
  have happended := Multimap.perm_iff_valuesAt.1 (appended_perm (response.headers ++ routeHeaders matched)) n
  rwa [validLines_append, Multimap.valuesAt_append] at happended

/-- Both heads give the body's length. -/
theorem plugin_lengths_alike {matched : Option Route} {response : PluginResponse} {head : ResponseHead}
    (h : ZaphylProxy.pluginHead matched response = some head) :
    head.headers.values HeaderName.contentLength =
      (Http3.pluginHead matched response).headers.values HeaderName.contentLength := by
  obtain ⟨length, hlength⟩ := validLine_lengthHeader response.body
  have hset : ∀ m : HeaderMap,
      (insertHeader m (lengthHeader response.body)).values HeaderName.contentLength = [length] := by
    intro m
    rw [HeaderMap.values, lines_insertHeader hlength, Multimap.valuesAt_set_self]
  unfold ZaphylProxy.pluginHead at h
  simp only [Option.ite_none_right_eq_some] at h
  obtain ⟨-, h⟩ := h
  obtain rfl := Option.some.inj h
  exact (hset _).trans (hset _).symm

/-- Both listeners write a head of a valid status, with that status. -/
theorem exists_plugin_head (matched : Option Route) {response : PluginResponse} (hstatus : isStatus response.status = true) :
    ∃ head, ZaphylProxy.pluginHead matched response = some head ∧
      head.status = (Http3.pluginHead matched response).status := by
  unfold ZaphylProxy.pluginHead Http3.pluginHead Http3.responseHead
  rw [if_pos hstatus, if_pos hstatus]
  exact ⟨_, rfl, rfl⟩

/-- The lines are the same exactly when no configured name is supplied or configured twice. -/
theorem plugin_lines_alike_iff {matched : Option Route} {response : PluginResponse} {head : ResponseHead}
    (hhead : ZaphylProxy.pluginHead matched response = some head) :
    head.headers.lines.Perm (Http3.pluginHead matched response).headers.lines ↔
      ∀ n, n ≠ HeaderName.contentLength → valuesAt n (configuredLines matched) = [] ∨
        (valuesAt n (validLines response.headers) = [] ∧ (valuesAt n (configuredLines matched)).length = 1) := by
  have hname : ∀ n, n ≠ HeaderName.contentLength →
      ((valuesAt n head.headers.lines).Perm (valuesAt n (Http3.pluginHead matched response).headers.lines) ↔
        valuesAt n (configuredLines matched) = [] ∨
          (valuesAt n (validLines response.headers) = [] ∧ (valuesAt n (configuredLines matched)).length = 1)) := by
    intro n hn
    have hhttp1 := values_http1_plugin hhead hn
    have hhttp3 := values_http3_plugin matched response hn
    rw [← last_perm_iff]
    exact ⟨fun h => hhttp1.symm.trans (h.trans hhttp3), fun h => hhttp1.trans (h.trans hhttp3.symm)⟩
  rw [Multimap.perm_iff_valuesAt]
  constructor
  · exact fun h n hn => (hname n hn).1 (h n)
  · intro h n
    by_cases hn : n = HeaderName.contentLength
    · subst hn
      have hlengths : valuesAt HeaderName.contentLength head.headers.lines = _ := plugin_lengths_alike hhead
      rw [hlengths]
      exact List.Perm.refl _
    · exact (hname n hn).2 (h n hn)

/-- A name that is configured once, and not supplied, has the configured value alone in both heads. -/
theorem configured_alone {matched : Option Route} {response : PluginResponse} {n : HeaderName} {value : HeaderValue}
    (hn : n ≠ HeaderName.contentLength) (hconfigured : valuesAt n (configuredLines matched) = [value])
    (hsupplied : valuesAt n (validLines response.headers) = []) :
    (∀ head, ZaphylProxy.pluginHead matched response = some head → head.headers.values n = [value]) ∧
      (Http3.pluginHead matched response).headers.values n = [value] := by
  have hhttp3 := values_http3_plugin matched response hn
  rw [hsupplied, hconfigured] at hhttp3
  refine ⟨fun head hhead => ?_, List.perm_singleton.1 hhttp3⟩
  have hhttp1 := values_http1_plugin hhead hn
  rw [hconfigured] at hhttp1
  exact List.perm_singleton.1 hhttp1

/-- **The heads of a plugin chain's response are alike exactly when no configured name is supplied by the plugins or
configured twice**, the length aside. -/
theorem plugin_heads_alike_iff (matched : Option Route) (response : PluginResponse)
    (hstatus : isStatus response.status = true) :
    PluginHeadsAlike matched response ↔
      ∀ n, n ≠ HeaderName.contentLength → valuesAt n (configuredLines matched) = [] ∨
        (valuesAt n (validLines response.headers) = [] ∧ (valuesAt n (configuredLines matched)).length = 1) := by
  obtain ⟨head, hhead, hsame⟩ := exists_plugin_head matched hstatus
  have hlines := plugin_lines_alike_iff hhead
  constructor
  · intro h
    obtain ⟨head', hhead', -, hperm⟩ := h.alike
    obtain rfl := Option.some.inj (hhead.symm.trans hhead')
    exact hlines.1 hperm
  · intro h
    refine ⟨⟨head, hhead, hsame, hlines.2 h⟩, fun n value hn hvalue => ?_⟩
    rcases h n hn with hnone | ⟨hsupplied, hone⟩
    · rw [hnone] at hvalue
      cases hvalue
    · obtain ⟨w, hw⟩ := List.length_eq_one_iff.1 hone
      rw [hw] at hvalue
      obtain rfl := Option.some.inj hvalue
      exact configured_alone hn hw hsupplied

/-- A route that sets a frame policy. -/
def framedRoute : Route := (Route.new none none []).withHeaders [] [("X-Frame-Options".toList, "DENY".toList)]

/-- A response of a plugin with nothing that the route sets. -/
theorem plain_plugin_heads_alike :
    PluginHeadsAlike (some framedRoute) ⟨200, [("x-plugin".toList, "1".toList)], []⟩ := by
  refine (plugin_heads_alike_iff (some framedRoute) ⟨200, [("x-plugin".toList, "1".toList)], []⟩ (by decide)).2 ?_
  intro n _
  have hconfigured : ∃ v, configuredLines (some framedRoute) =
      [(⟨"x-frame-options".toList, by decide⟩, v)] := ⟨⟨[68, 69, 78, 89], by decide⟩, by decide⟩
  have hsupplied : ∃ v, validLines [("x-plugin".toList, "1".toList)] =
      [(⟨"x-plugin".toList, by decide⟩, v)] := ⟨⟨[49], by decide⟩, by decide⟩
  obtain ⟨v, hconfigured⟩ := hconfigured
  obtain ⟨w, hsupplied⟩ := hsupplied
  rw [hconfigured, hsupplied]
  by_cases hn : (⟨"x-frame-options".toList, by decide⟩ : HeaderName) = n
  · subst hn
    refine Or.inr ⟨?_, ?_⟩
    · have hne : (⟨"x-plugin".toList, by decide⟩ : HeaderName) ≠ ⟨"x-frame-options".toList, by decide⟩ := by decide
      exact Multimap.valuesAt_cons_ne hne []
    · rw [Multimap.valuesAt_cons_pair]
      rfl
  · exact Or.inl (Multimap.valuesAt_cons_ne hn [])

/-- **Over a plugin's frame policy HTTP/1 sends the route's, and HTTP/3 both.** -/
theorem plugin_frame_policy_kept :
    ¬ PluginHeadsAlike (some framedRoute) ⟨200, [("x-frame-options".toList, "ALLOW".toList)], []⟩ := by
  intro h
  obtain ⟨head, hhead, -, hperm⟩ := h.alike
  obtain rfl := Option.some.inj hhead
  have hlength := hperm.length_eq
  revert hlength
  decide

end Zaphyl
