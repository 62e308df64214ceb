import Zaphyl.HeaderLines
/-!
# RelayedHead — the response head that HTTP/3 relays

HTTP/3 drops three hop-by-hop names from an origin's response and inserts the route's response headers.  A name then
holds the last valid value the route sets for it, or what the origin sent (`values_relayHead`), and a route that sets
nothing a lifetime depends on gives no response one it did not have (`upstreamTtl_of_relayHead`).
-/
namespace Zaphyl

open Multimap (valuesAt Grouped)

/-- The header lines a route sets on responses: its valid headers, in their order. -/
def Route.responseLines (r : Route) : List (HeaderName × HeaderValue) := r.responseHeaders.filterMap validLine

/-- The value a name has once the route has set its headers. -/
def Route.responseValue (r : Route) (n : HeaderName) (head : ResponseHead) : Option Str :=
  match (valuesAt n r.responseLines).getLast? with
  | some value => value.toStr
  | none => head.headers.getStr n

/-- The names that HTTP/3 drops. -/
def hopNames : List HeaderName := [HeaderName.connection, HeaderName.transferEncoding, HeaderName.upgrade]

theorem lines_relayHead (route : Route) (head : ResponseHead) :
    (relayHead route head).headers.lines =
      Multimap.setAll route.responseLines (hopNames.foldl HeaderMap.remove head.headers).lines :=
  lines_foldl_insertHeader route.responseHeaders _

theorem grouped_foldl_remove (names : List HeaderName) : ∀ {m : HeaderMap}, Grouped m.lines →
    Grouped (names.foldl HeaderMap.remove m).lines := by
  induction names with
  | nil => exact fun h => h
  | cons n names ih => exact fun h => ih (h.drop n)

/-- Names that are not removed keep their values. -/
theorem values_foldl_remove {k : HeaderName} (names : List HeaderName) (hk : k ∉ names) : ∀ m : HeaderMap,
    (names.foldl HeaderMap.remove m).values k = m.values k := by
  induction names with
  | nil => exact fun _ => rfl
  | cons n names ih =>
    intro m
    obtain ⟨hne, hrest⟩ : k ≠ n ∧ k ∉ names := by simpa using hk
    rw [List.foldl_cons, ih hrest, HeaderMap.values_remove_ne _ (Ne.symm hne)]

theorem values_foldl_remove_of_mem {k : HeaderName} {names : List HeaderName} (hk : k ∈ names) (m : HeaderMap) :
    (names.foldl HeaderMap.remove m).values k = [] := by
  induction names generalizing m with
  | nil => cases hk
  | cons n names ih =>
    rw [List.foldl_cons]
    by_cases hrest : k ∈ names
    · exact ih hrest _
    · have hself : k = n := (List.mem_cons.1 hk).resolve_right hrest
      rw [values_foldl_remove names hrest, hself, HeaderMap.values_remove_self]

/-- A name holds the last value the route sets for it, or what the origin sent. -/
theorem values_relayHead {n : HeaderName} (hn : n ∉ hopNames) (route : Route) (head : ResponseHead) :
    (relayHead route head).headers.values n =
      ((valuesAt n route.responseLines).getLast?.map (fun v => [v])).getD (head.headers.values n) := by
  rw [HeaderMap.values, lines_relayHead, Multimap.valuesAt_setAll]
  exact congrArg _ (values_foldl_remove hopNames hn head.headers)

theorem getStr_relayHead {n : HeaderName} (hn : n ∉ hopNames) (route : Route) (head : ResponseHead) :
    (relayHead route head).headers.getStr n = route.responseValue n head := by
  rw [HeaderMap.getStr, HeaderMap.get_eq_head?, values_relayHead hn, Route.responseValue]
  cases (valuesAt n route.responseLines).getLast? with
  | none => rw [Option.map_none, Option.getD_none, ← HeaderMap.get_eq_head?, HeaderMap.getStr]
  | some value => rfl

theorem containsKey_relayHead {n : HeaderName} (hn : n ∉ hopNames) (route : Route) (head : ResponseHead) :
    (relayHead route head).headers.containsKey n =
      (head.headers.containsKey n || decide (valuesAt n route.responseLines ≠ [])) := by
  have hkept : valuesAt n (hopNames.foldl HeaderMap.remove head.headers).lines = head.headers.values n :=
    values_foldl_remove hopNames hn head.headers
  rw [Bool.eq_iff_iff, Bool.or_eq_true, HeaderMap.containsKey_iff_values, HeaderMap.containsKey_iff_values,
    HeaderMap.values, lines_relayHead, Multimap.valuesAt_setAll_ne_nil_iff, hkept, decide_eq_true_iff, or_comm]

/-- A name that HTTP/3 drops stands in the relayed head when the route sets it. -/
theorem containsKey_relayHead_hop {n : HeaderName} (hn : n ∈ hopNames) (route : Route) (head : ResponseHead) :
    (relayHead route head).headers.containsKey n = decide (valuesAt n route.responseLines ≠ []) := by
  have hdropped : valuesAt n (hopNames.foldl HeaderMap.remove head.headers).lines = [] :=
    values_foldl_remove_of_mem hn head.headers
  rw [Bool.eq_iff_iff, HeaderMap.containsKey_iff_values, HeaderMap.values, lines_relayHead,
    Multimap.valuesAt_setAll_ne_nil_iff, hdropped, decide_eq_true_iff, or_iff_left (fun h => h rfl)]

/-! ## Lifetimes -/

/-- A route that sets a header the lifetime depends on. -/
def Route.setsLifetime (route : Route) : Prop :=
  ∃ h ∈ route.responseHeaders, HeaderName.parse h.1 = some HeaderName.cacheControl ∨
    HeaderName.parse h.1 = some HeaderName.vary

theorem Route.responseValue_of_unset {r : Route} {n : HeaderName}
    (h : ∀ x ∈ r.responseHeaders, HeaderName.parse x.1 ≠ some n) (head : ResponseHead) :
    r.responseValue n head = head.headers.getStr n := by
  have hnone : valuesAt n r.responseLines = [] := by
    rw [Multimap.valuesAt_eq_nil_iff]
    intro l hl hname
    obtain ⟨x, hx, hline⟩ := List.mem_filterMap.1 hl
    rw [← hname] at h
    exact h x hx (validLine_eq_some_iff.1 hline).1
  rw [Route.responseValue, hnone]
  rfl

/-- **A route that sets neither `Cache-Control` nor `Vary` gives no response a lifetime it did not have.** -/
theorem upstreamTtl_of_relayHead {route : Route} {head : ResponseHead} (hroute : ¬ route.setsLifetime)
    (h : upstreamTtl (relayHead route head) ≠ none) : upstreamTtl head ≠ none := by
  have hcc : (relayHead route head).headers.getStr HeaderName.cacheControl = head.headers.getStr HeaderName.cacheControl := by
    rw [getStr_relayHead (by decide)]
    exact Route.responseValue_of_unset (fun x hx hp => hroute ⟨x, hx, Or.inl hp⟩) head
  have hvary : (relayHead route head).headers.getStr HeaderName.vary = head.headers.getStr HeaderName.vary := by
    rw [getStr_relayHead (by decide)]
    exact Route.responseValue_of_unset (fun x hx hp => hroute ⟨x, hx, Or.inr hp⟩) head
  unfold upstreamTtl at h ⊢
  rw [hcc, hvary] at h
  obtain ⟨hstatus, hcookie, hrest⟩ := (responseTtl_ne_none_iff ..).1 h
  have hunset : head.headers.containsKey HeaderName.setCookie = false := by
    rw [containsKey_relayHead (by decide), Bool.or_eq_false_iff] at hcookie
    exact hcookie.1
  exact (responseTtl_ne_none_iff ..).2 ⟨hstatus, hunset, hrest⟩

end Zaphyl
