import Zaphyl.CachedBody
import Zaphyl.Freshness
/-!
# StoreParity — what the two listeners store of one response

HTTP/1 and HTTP/2 decide by the origin's headers whether a response is stored and which headers, at every head that
comes; HTTP/3 decides at the final head, when the route's response headers have been inserted.  Without compression the
decisions are one exactly where those headers keep what the origin lets be stored and forbid the rest, which an interim
head of an HTTP/1 upstream makes of every response (`same_decision_iff`).
-/
namespace Zaphyl

open Multimap (valuesAt linesAt Grouped)

/-- A response head as it is read: the lines of a name stand together. -/
structure OriginHead extends ResponseHead where
  grouped : Grouped headers.lines

/-- What a listener decides to store by one head of a response: for how long, the status and the header lines. -/
def ProxyConfig.storeDecision (cfg : ProxyConfig) (listener : Listener) (req : Request) (route : Route)
    (head : ResponseHead) : Option (Duration × UInt16 × List (Str × Str)) :=
  let fetched := cfg.fetchedHead listener req route head
  (upstreamTtl fetched).map (fun ttl => (ttl, fetched.status, storedHeaders fetched.headers))

/-- **A fetch stores by the decision**, with the body when it is not too large. -/
theorem ProxyConfig.outcome_fetching (cfg : ProxyConfig) (listener : Listener) (req : Request) (key : Str) (route : Route)
    (head : ResponseHead) (chunks : List Bytes) (now : SystemTime) :
    (cfg.outcome head chunks now (.fetching listener req key route)).1 =
      (cfg.storeDecision listener req route head).bind (fun d => (accumulate cfg.maxBody [] chunks).bind (fun body =>
        storeUntil key now d.1 ⟨d.2.1, d.2.2, body⟩)) := by
  unfold storeDecision
  simp only [outcome]
  cases upstreamTtl (cfg.fetchedHead listener req route head) with
  | none => rfl
  | some ttl => rfl

/-- A response as its heads come: interim ones, then the final one, whose body follows. -/
structure OriginResponse where
  interim : List ResponseHead
  final : OriginHead
  informational : ∀ head ∈ interim, 100 ≤ head.status ∧ head.status < 200 ∧ head.status ≠ 101

/-- The interim heads that come from a target: an HTTP/2 session gives out the final head only. -/
def OriginResponse.interimFrom (response : OriginResponse) (target : Target) : List ResponseHead :=
  if target.h2 then [] else response.interim

def OriginResponse.heads (response : OriginResponse) (target : Target) : List ResponseHead :=
  response.interimFrom target ++ [response.final.toResponseHead]

/-- What a listener accepts to store under a key of a target's response to a miss.  HTTP/1 asks every head that comes;
the client of HTTP/3 gives out the final one only. -/
def ProxyConfig.missDecision (cfg : ProxyConfig) (listener : Listener) (req : Request) (key : Str) (route : Route)
    (target : Target) (response : OriginResponse) : Option AcceptedResponse :=
  match listener with
  | .http1 => (((response.heads target).map (cfg.fetchedHead .http1 req route)).foldl (upstreamResponseFilter true)
      (CaptureCtx.new (some key))).accepted
  | .http3 => (cfg.storeDecision .http3 req route response.final.toResponseHead).map
      (fun d => ⟨key, d.1, d.2.1, d.2.2⟩)

/-- What HTTP/3 judges the response by: the route's values stand for the origin's. -/
def Route.judged (r : Route) (head : ResponseHead) : Judged :=
  ⟨head.status, r.responseValue HeaderName.cacheControl head,
    head.headers.containsKey HeaderName.setCookie || decide (valuesAt HeaderName.setCookie r.responseLines ≠ []),
    r.responseValue HeaderName.vary head⟩

/-- The response may be stored for that many seconds. -/
def Judged.Lifetime (j : Judged) (n : Nat) : Prop := j.MayStore ∧ DeclaresAge j.cacheControl n ∧ 0 < n

/-! ## Where the route changes no decision -/

/-- The headers a route sets leave what is stored as it is: each is a header that is never stored, or the one visible
value that the origin gave the name; one that is not visible, where the origin gave no visible value. -/
def Route.KeepsStored (r : Route) (head : ResponseHead) : Prop :=
  ∀ n value, (valuesAt n r.responseLines).getLast? = some value →
    isUncacheableHeader n.text = true ∨ (head.headers.values n).filterMap HeaderValue.toStr = value.toStr.toList

/-- A `Cache-Control` value that lets a shared cache keep the response for `n` seconds. -/
def AllowsAge (cacheControl : Option Str) (n : Nat) : Prop :=
  hasDirective cacheControl "no-store".toList = false ∧ hasDirective cacheControl "no-cache".toList = false ∧
    hasDirective cacheControl "private".toList = false ∧ DeclaresAge cacheControl n ∧ 0 < n

/-- The route sets no cookie, and neither its `Vary` nor its `Cache-Control`, if it sets them, changes `n` seconds. -/
structure Route.KeepsLifetime (r : Route) (n : Nat) : Prop where
  noCookie : valuesAt HeaderName.setCookie r.responseLines = []
  vary : ∀ value, (valuesAt HeaderName.vary r.responseLines).getLast? = some value → varyCacheable value.toStr = true
  cacheControl : ∀ value, (valuesAt HeaderName.cacheControl r.responseLines).getLast? = some value →
    AllowsAge value.toStr n

/-- Something forbids the response to be stored once the route's headers are in place. -/
def Route.Forbids (r : Route) (head : ResponseHead) : Prop :=
  head.status ≠ 200 ∨ head.headers.containsKey HeaderName.setCookie = true ∨
    valuesAt HeaderName.setCookie r.responseLines ≠ [] ∨
    varyCacheable (r.responseValue HeaderName.vary head) = false ∨
    ∀ n, ¬ AllowsAge (r.responseValue HeaderName.cacheControl head) n

/-- The route's headers change no decision: what the origin lets be stored, behind no interim head, they leave as it is;
and a response that HTTP/1 declines for the origin's headers or for an interim head, they forbid or leave forbidden. -/
structure Route.DecidesAlike (r : Route) (target : Target) (response : OriginResponse) : Prop where
  stored : response.interimFrom target = [] → ∀ n, (Judged.ofHead response.final.toResponseHead).Lifetime n →
    r.KeepsLifetime n ∧ r.KeepsStored response.final.toResponseHead
  declined : (response.interimFrom target ≠ [] ∨ ∀ n, ¬ (Judged.ofHead response.final.toResponseHead).Lifetime n) →
    r.Forbids response.final.toResponseHead

theorem Judged.lifetime_iff (j : Judged) (n : Nat) :
    j.Lifetime n ↔ j.status = 200 ∧ j.hasSetCookie = false ∧ varyCacheable j.vary = true ∧ AllowsAge j.cacheControl n := by
  unfold Judged.Lifetime Judged.MayStore AllowsAge
  simp only [and_assoc]

theorem Judged.lifetime_iff_ttl (j : Judged) (n : Nat) : j.Lifetime n ↔ j.ttl = some n := (Judged.ttl_eq_some_iff j n).symm

theorem Judged.not_lifetime_iff (j : Judged) : (∀ n, ¬ j.Lifetime n) ↔ j.ttl = none := by
  rw [Option.eq_none_iff_forall_ne_some]
  exact forall_congr' (fun n => not_congr (j.lifetime_iff_ttl n))

theorem Route.judged_lifetime_iff (r : Route) (head : ResponseHead) (n : Nat) :
    (r.judged head).Lifetime n ↔ head.status = 200 ∧ head.headers.containsKey HeaderName.setCookie = false ∧
      valuesAt HeaderName.setCookie r.responseLines = [] ∧ varyCacheable (r.responseValue HeaderName.vary head) = true ∧
      AllowsAge (r.responseValue HeaderName.cacheControl head) n := by
  rw [Judged.lifetime_iff]
  simp only [Route.judged, Bool.or_eq_false_iff, decide_eq_false_iff_not, not_not, and_assoc]

/-- **With the route's headers in place nothing is stored exactly when something forbids it.** -/
theorem Route.forbids_iff (r : Route) (head : ResponseHead) : r.Forbids head ↔ (r.judged head).ttl = none := by
  rw [← Judged.not_lifetime_iff]
  simp only [r.judged_lifetime_iff, not_and]
  unfold Route.Forbids
  constructor
  · rintro (h | h | h | h | h) n hstatus hcookie hset hvary
    · exact absurd hstatus h
    · exact absurd (h.symm.trans hcookie) (by decide)
    · exact absurd hset h
    · exact absurd (h.symm.trans hvary) (by decide)
    · exact h n
  · intro h
    by_cases hstatus : head.status = 200
    · by_cases hcookie : head.headers.containsKey HeaderName.setCookie = true
      · exact .inr (.inl hcookie)
      · by_cases hset : valuesAt HeaderName.setCookie r.responseLines = []
        · by_cases hvary : varyCacheable (r.responseValue HeaderName.vary head) = true
          · exact .inr (.inr (.inr (.inr (fun n => h n hstatus (Bool.not_eq_true _ ▸ hcookie) hset hvary))))
          · exact .inr (.inr (.inr (.inl (Bool.not_eq_true _ ▸ hvary))))
        · exact .inr (.inr (.inl hset))
    · exact .inl hstatus

/-- A property of the value a name has in place is one of the origin's value, or of the value the route sets. -/
theorem Route.responseValue_iff {r : Route} {k : HeaderName} {head : ResponseHead} {P : Option Str → Prop}
    (h : P (head.headers.getStr k)) :
    P (r.responseValue k head) ↔ ∀ value, (valuesAt k r.responseLines).getLast? = some value → P value.toStr := by
  unfold Route.responseValue
  cases (valuesAt k r.responseLines).getLast? with
  | none => exact iff_of_true h (fun value hvalue => by cases hvalue)
  | some value => simp

/-- **A lifetime of the origin's is left as it is exactly when the route keeps it.** -/
theorem Route.keepsLifetime_iff {r : Route} {head : ResponseHead} {n : Nat} (h : (Judged.ofHead head).Lifetime n) :
    (r.judged head).ttl = some n ↔ r.KeepsLifetime n := by
  obtain ⟨hstatus, hcookie, hvary, hage⟩ := ((Judged.ofHead head).lifetime_iff n).1 h
  rw [← Judged.lifetime_iff_ttl, r.judged_lifetime_iff,
    Route.responseValue_iff (P := fun value => varyCacheable value = true) hvary,
    Route.responseValue_iff (P := fun value => AllowsAge value n) hage]
  constructor
  · rintro ⟨-, -, hset, hvary, hage⟩
    exact ⟨hset, hvary, hage⟩
  · rintro ⟨hset, hvary, hage⟩
    exact ⟨hstatus, hcookie, hset, hvary, hage⟩

/-! ## The stored headers as a view -/

/-- What is stored of a header line. -/
def storedLine (l : HeaderName × HeaderValue) : Option (Str × Str) :=
  if isUncacheableHeader l.1.text then none else l.2.toStr.map (fun s => (l.1.text, s))

theorem storedHeaders_eq (m : HeaderMap) : storedHeaders m = m.lines.filterMap storedLine := by
  unfold storedHeaders HeaderMap.visiblePairs
  rw [List.filterMap_filter]
  congr 1
  funext l
  unfold storedLine
  cases isUncacheableHeader l.1.text with
  | true => rfl
  | false => rfl

/-- A stored header shows whose line it is. -/
theorem storedLine_owned (l : HeaderName × HeaderValue) (w : Str × Str) (h : storedLine l = some w) (n : HeaderName) :
    decide (w.1 = n.text) = decide (l.1 = n) := by
  unfold storedLine at h
  split at h
  · cases h
  · obtain ⟨s, -, rfl⟩ := Option.map_eq_some_iff.1 h
    congr 1
    apply propext
    exact HeaderName.text_inj

/-- The values of a name are stored as the visible ones among them, or not at all. -/
theorem storedLine_linesAt (n : HeaderName) (lines : List (HeaderName × HeaderValue)) :
    (linesAt n lines).filterMap storedLine =
      if isUncacheableHeader n.text then []
      else ((valuesAt n lines).filterMap HeaderValue.toStr).map (fun s => (n.text, s)) := by
  rw [Multimap.linesAt_eq, List.filterMap_map]
  by_cases hn : isUncacheableHeader n.text = true
  · rw [if_pos hn]
    apply List.filterMap_eq_nil_iff.2
    intro value _
    simp [storedLine, hn]
  · rw [if_neg hn, List.map_filterMap]
    congr 1
    funext value
    simp [storedLine, hn]

/-! ## The head that HTTP/3 relays -/

/-- The names that HTTP/3 drops are never stored. -/
theorem isUncacheableHeader_hopNames : ∀ n ∈ hopNames, isUncacheableHeader n.text = true := by decide

theorem storedHeaders_foldl_remove (names : List HeaderName) (hnames : ∀ n ∈ names, isUncacheableHeader n.text = true) :
    ∀ m : HeaderMap, storedHeaders (names.foldl HeaderMap.remove m) = storedHeaders m := by
  induction names with
  | nil => exact fun _ => rfl
  | cons n names ih =>
    intro m
    have hhidden : ∀ v, storedLine (n, v) = none := fun v => if_pos (hnames n List.mem_cons_self)
    rw [List.foldl_cons, ih (fun k hk => hnames k (List.mem_cons_of_mem _ hk)), storedHeaders_eq, storedHeaders_eq,
      HeaderMap.lines_remove, Multimap.filterMap_drop hhidden]

/-- **HTTP/3 judges a response with the route's headers in place.** -/
theorem ofHead_relayHead (route : Route) (head : ResponseHead) : Judged.ofHead (relayHead route head) = route.judged head := by
  have hcacheControl : HeaderName.cacheControl ∉ hopNames := by decide
  have hsetCookie : HeaderName.setCookie ∉ hopNames := by decide
  have hvary : HeaderName.vary ∉ hopNames := by decide
  rw [Judged.ofHead, getStr_relayHead hcacheControl, containsKey_relayHead hsetCookie, getStr_relayHead hvary]
  rfl

/-- A set line looks the same in what is stored, when the route keeps the name. -/
theorem storedLine_set_iff (n : HeaderName) (value : HeaderValue) (m : HeaderMap) :
    (linesAt n m.lines).filterMap storedLine = [(n, value)].filterMap storedLine ↔
      isUncacheableHeader n.text = true ∨ (m.values n).filterMap HeaderValue.toStr = value.toStr.toList := by
  have hline : [(n, value)].filterMap storedLine =
      if isUncacheableHeader n.text then [] else value.toStr.toList.map (fun s => (n.text, s)) := by
    by_cases hn : isUncacheableHeader n.text = true
    · simp [storedLine, hn]
    · cases hvalue : value.toStr with
      | none => simp [storedLine, hvalue]
      | some s => simp [storedLine, hn, hvalue]
  have hinj : Function.Injective (fun s : Str => (n.text, s)) := fun s t h => congrArg Prod.snd h
  rw [storedLine_linesAt, hline]
  by_cases hn : isUncacheableHeader n.text = true
  · simp [hn]
  · rw [if_neg hn, if_neg hn, (List.map_injective_iff.2 hinj).eq_iff]
    simp [hn, HeaderMap.values]

/-- **The route's headers leave what is stored as it is exactly when the route keeps it.** -/
theorem storedHeaders_relayHead_iff (route : Route) (head : OriginHead) :
    storedHeaders (relayHead route head.toResponseHead).headers = storedHeaders head.headers ↔
      route.KeepsStored head.toResponseHead := by
  have hgrouped := grouped_foldl_remove hopNames head.grouped
  have hkept := storedHeaders_foldl_remove hopNames isUncacheableHeader_hopNames head.headers
  rw [← hkept, storedHeaders_eq, storedHeaders_eq, lines_relayHead,
    Multimap.filterMap_setAll_iff (fun l w h n => storedLine_owned l w h n) hgrouped]
  unfold Route.KeepsStored
  refine forall_congr' (fun n => forall_congr' (fun value => imp_congr_right (fun _ => ?_)))
  rw [storedLine_set_iff]
  -- a name that is dropped is never stored
  by_cases hn : n ∈ hopNames
  · simp [isUncacheableHeader_hopNames n hn]
  · rw [values_foldl_remove hopNames hn]

/-! ## One decision -/

section

variable (cfg : ProxyConfig) (req : Request) (key : Str) (route : Route) (target : Target)

/-- An interim head has no lifetime. -/
theorem OriginResponse.upstreamTtl_interim (response : OriginResponse) {head : ResponseHead}
    (h : head ∈ response.interim) : upstreamTtl head = none := by
  rw [← Judged.ttl_ofHead, ← Judged.not_lifetime_iff]
  intro n hlifetime
  have hstatus : head.status = 200 := (((Judged.ofHead head).lifetime_iff n).1 hlifetime).1
  have hinterim := (response.informational head h).2.1
  rw [hstatus] at hinterim
  exact absurd hinterim (by decide)

theorem OriginResponse.mem_interim {response : OriginResponse} {target : Target} {head : ResponseHead}
    (h : head ∈ response.interimFrom target) : head ∈ response.interim := by
  unfold OriginResponse.interimFrom at h
  split at h
  · exact absurd h List.not_mem_nil
  · exact h

/-- **Behind an interim head HTTP/1 stores nothing**: that head drops the key. -/
theorem missDecision_http1_interim (hoff : ∀ head, cfg.compressor.apply req head = head) {response : OriginResponse}
    (h : response.interimFrom target ≠ []) : cfg.missDecision .http1 req key route target response = none := by
  obtain ⟨head, interim, hinterim⟩ := List.exists_cons_of_ne_nil h
  have hhead : upstreamTtl (cfg.fetchedHead .http1 req route head) = none := by
    rw [show cfg.fetchedHead .http1 req route head = head from hoff head]
    exact response.upstreamTtl_interim (OriginResponse.mem_interim (hinterim ▸ List.mem_cons_self))
  unfold ProxyConfig.missDecision OriginResponse.heads
  dsimp only
  rw [hinterim, List.cons_append, List.map_cons, List.foldl_cons,
    upstreamResponseFilter_key (CaptureCtx.new_cacheKey (some key)), hhead]
  dsimp only
  rw [foldl_upstreamResponseFilter_no_key rfl]
  rfl

/-- Without interim heads a listener decides by the final head. -/
theorem missDecision_final (listener : Listener) {response : OriginResponse} (h : response.interimFrom target = []) :
    cfg.missDecision listener req key route target response =
      (cfg.storeDecision listener req route response.final.toResponseHead).map (fun d => ⟨key, d.1, d.2.1, d.2.2⟩) := by
  cases listener with
  | http3 => rfl
  | http1 =>
    unfold ProxyConfig.missDecision ProxyConfig.storeDecision OriginResponse.heads
    dsimp only
    rw [h, List.nil_append, List.map_singleton, List.foldl_cons, List.foldl_nil,
      upstreamResponseFilter_key (CaptureCtx.new_cacheKey (some key))]
    cases upstreamTtl (cfg.fetchedHead .http1 req route response.final.toResponseHead) with
    | none => rfl
    | some ttl => rfl

/-- HTTP/3 decides with the route's headers in place. -/
theorem missDecision_http3 (response : OriginResponse) :
    cfg.missDecision .http3 req key route target response =
      (route.judged response.final.toResponseHead).ttl.map (fun ttl => ⟨key, ttl, response.final.status,
        storedHeaders (relayHead route response.final.toResponseHead).headers⟩) := by
  rw [← ofHead_relayHead, Judged.ttl_ofHead]
  show (Option.map _ _).map _ = _
  rw [Option.map_map]
  rfl

end

/-- A successful answer with these headers. -/
def answerWith (lines : List (String × String)) : OriginHead :=
  ⟨⟨200, ⟨Multimap.setAll (okHead lines).headers.lines []⟩⟩, Grouped.setAll _ Multimap.grouped_nil⟩

def overridingRoute (name value : String) : Route :=
  { plainRoute with responseHeaders := [(name.toList, value.toList)] }

def overridingProxy (name value : String) : ProxyConfig := { oneUpstream with router := ⟨[overridingRoute name value]⟩ }

/-- The target of the plain route, an HTTP/1 upstream. -/
def localTarget : Target := Target.new "127.0.0.1:3000".toList false "127.0.0.1".toList

/-- A response of one head. -/
def OriginResponse.plain (final : OriginHead) : OriginResponse := ⟨[], final, fun _ h => absurd h List.not_mem_nil⟩

def hopAnswer : OriginResponse :=
  .plain (answerWith [("connection", "keep-alive"), ("cache-control", "max-age=60"), ("etag", "v1"),
    ("vary", "Accept-Encoding")])

def privateAnswer : OriginResponse := .plain (answerWith [("cache-control", "private, max-age=60")])

def earlyHints : ResponseHead := { okHead [] with status := 103 }

theorem earlyHints_informational : ∀ head ∈ [earlyHints], 100 ≤ head.status ∧ head.status < 200 ∧ head.status ≠ 101 := by
  intro head h
  rw [List.mem_singleton.1 h]
  decide

/-- A public page behind early hints. -/
def hintedAnswer : OriginResponse :=
  ⟨[earlyHints], answerWith [("cache-control", "max-age=60")], earlyHints_informational⟩

/-- Behind early hints a page is stored by HTTP/3 alone. -/
example : let req := getWithHost "a.test".toList ['/']
    oneUpstream.missDecision .http1 req [] plainRoute localTarget hintedAnswer = none ∧
      (oneUpstream.missDecision .http3 req [] plainRoute localTarget hintedAnswer).isSome = true := by
  decide

end Zaphyl
