import Zaphyl.Http
import Zaphyl.Time
/-!
# CachePolicy — what may be cached, for how long, and under which key

The pure functions of the response cache: the cacheability of a request, the lifetime of a response, the canonical
form of `Accept-Encoding`, `If-None-Match`, and the cache key.
-/
namespace Zaphyl

open Text (trim before join canon asciiLower eqIgnoreAsciiCase)

def hasDirective (cacheControl : Option Str) (directive : Str) : Bool :=
  match cacheControl with
  | none => false
  | some value => (value.splitOn ',').any (fun part => trim (before '=' (trim part)) == directive)

def maxAge (cacheControl : Str) : Option Nat :=
  (cacheControl.splitOn ',').findSome? (fun part =>
    ((trim part).dropPrefix? "max-age=".toList).bind (fun n => Text.parseUnsigned (2 ^ 64) (trim n)))

def requestCacheable (method : Str) (cacheControl : Option Str) (hasAuthorization : Bool) : Bool :=
  method == "GET".toList && !hasAuthorization && !hasDirective cacheControl "no-store".toList &&
    !hasDirective cacheControl "no-cache".toList

def varyCacheable (vary : Option Str) : Bool :=
  match vary with
  | none => true
  | some value =>
    trim value != ['*'] &&
      ((trim value).splitOn ',').all (fun token => eqIgnoreAsciiCase (trim token) "accept-encoding".toList)

def responseTtl (status : UInt16) (cacheControl : Option Str) (hasSetCookie : Bool) (vary : Option Str) :
    Option Duration :=
  if status ≠ 200 || hasSetCookie || !varyCacheable vary then none
  else if hasDirective cacheControl "no-store".toList || hasDirective cacheControl "no-cache".toList ||
      hasDirective cacheControl "private".toList then none
  else
    match cacheControl.bind maxAge with
    | some seconds => if seconds > 0 then some seconds else none
    | none => none

/-- The coding names an `Accept-Encoding` value lists, in its order. -/
def acceptTokens (acceptEncoding : Option Str) : List Str :=
  ((acceptEncoding.getD []).splitOn ',').filterMap (fun part =>
    let token := asciiLower (trim (before ';' part))
    if token = [] then none else some token)

/-- A canonical form of `Accept-Encoding` for use in the cache key. -/
def normalizeAcceptEncoding (acceptEncoding : Option Str) : Str := join ',' (canon (acceptTokens acceptEncoding))

def unitSep : Char := '\x1f'

def cacheKey (host pathAndQuery : Str) (acceptEncoding : Option Str) : Str :=
  host ++ pathAndQuery ++ unitSep :: normalizeAcceptEncoding acceptEncoding

def stripWeak (etag : Str) : Str := trim (((trim etag).dropPrefix? "W/".toList).getD etag)

def ifNoneMatchSatisfied (ifNoneMatch etag : Str) : Bool :=
  trim ifNoneMatch == ['*'] ||
    ((trim ifNoneMatch).splitOn ',').any (fun candidate => stripWeak (trim candidate) == stripWeak etag)

example : responseTtl 200 (some "public, max-age=60".toList) false none = some 60 := by decide

/-! ## The lifetime -/

/-- **When a response has a lifetime, and which.** -/
theorem responseTtl_eq_some_iff {status : UInt16} {cc vary : Option Str} {sc : Bool} {ttl : Duration} :
    responseTtl status cc sc vary = some ttl ↔
      (status = 200 ∧ sc = false ∧ varyCacheable vary = true) ∧
      (hasDirective cc "no-store".toList = false ∧ hasDirective cc "no-cache".toList = false ∧
        hasDirective cc "private".toList = false) ∧
      cc.bind maxAge = some ttl ∧ 0 < ttl := by
  have hkind : (status ≠ 200 || sc || !varyCacheable vary) = false ↔
      status = 200 ∧ sc = false ∧ varyCacheable vary = true := by
    simp [Bool.or_eq_false_iff, and_assoc]
  have hdirectives : (hasDirective cc "no-store".toList || hasDirective cc "no-cache".toList ||
      hasDirective cc "private".toList) = false ↔ hasDirective cc "no-store".toList = false ∧
        hasDirective cc "no-cache".toList = false ∧ hasDirective cc "private".toList = false := by
    rw [Bool.or_eq_false_iff, Bool.or_eq_false_iff, and_assoc]
  unfold responseTtl
  rw [← hkind, ← hdirectives]
  split
  · rename_i h
    exact iff_of_false (fun hs => by cases hs) (fun hs => by rw [h] at hs; cases hs.1)
  · rename_i h
    rw [and_iff_right (Bool.eq_false_iff.2 h)]
    split
    · rename_i h
      exact iff_of_false (fun hs => by cases hs) (fun hs => by rw [h] at hs; cases hs.1)
    · rename_i h
      rw [and_iff_right (Bool.eq_false_iff.2 h)]
      cases cc.bind maxAge with
      | none => simp
      | some seconds =>
        by_cases hpos : seconds > 0
        · simp only [if_pos hpos, Option.some.injEq]
          exact ⟨fun hs => ⟨hs, hs ▸ hpos⟩, fun hs => hs.1⟩
        · simp only [if_neg hpos, Option.some.injEq]
          exact iff_of_false (fun hs => by cases hs) (fun hs => hpos (hs.1 ▸ hs.2))

theorem asciiLower_eq_star_iff (s : Str) : asciiLower s = ['*'] ↔ s = ['*'] := by
  have hstar : ∀ c : Char, Char.toLower c = '*' ↔ c = '*' := fun c => Text.toLower_eq_iff (by decide) (by decide)
  match s with
  | [] => simp [asciiLower]
  | [c] => simp [asciiLower, hstar]
  | c :: d :: s => simp [asciiLower]

/-- `Vary` is judged without case. -/
theorem varyCacheable_asciiLower (value : Str) : varyCacheable (some (asciiLower value)) = varyCacheable (some value) := by
  have hstar : (asciiLower (trim value) != ['*']) = (trim value != ['*']) := by
    rw [Bool.eq_iff_iff, bne_iff_ne, bne_iff_ne, ne_eq, ne_eq, asciiLower_eq_star_iff]
  have htoken : ∀ token : Str, eqIgnoreAsciiCase (trim (asciiLower token)) "accept-encoding".toList =
      eqIgnoreAsciiCase (trim token) "accept-encoding".toList := by
    intro token
    rw [Bool.eq_iff_iff, Text.eqIgnoreAsciiCase_iff, Text.eqIgnoreAsciiCase_iff, Text.trim_asciiLower,
      Text.asciiLower_asciiLower]
  unfold varyCacheable
  simp only
  rw [Text.trim_asciiLower, hstar, Text.splitOn_asciiLower (by decide) (by decide), List.all_map]
  simp only [Function.comp_def, htoken]

theorem varyCacheable_acceptEncoding {value : Str} (h : eqIgnoreAsciiCase value "accept-encoding".toList = true) :
    varyCacheable (some value) = true := by
  rw [← varyCacheable_asciiLower, (Text.eqIgnoreAsciiCase_iff _ _).1 h]
  decide

theorem responseTtl_congr_vary {status : UInt16} {cc vary vary' : Option Str} {sc : Bool}
    (h : varyCacheable vary = varyCacheable vary') :
    responseTtl status cc sc vary = responseTtl status cc sc vary' := by
  unfold responseTtl
  rw [h]

theorem responseTtl_ne_none_iff (status : UInt16) (cc : Option Str) (sc : Bool) (vary : Option Str) :
    responseTtl status cc sc vary ≠ none ↔
      status = 200 ∧ sc = false ∧ varyCacheable vary = true ∧ responseTtl 200 cc false none ≠ none := by
  have hsome : ∀ {status : UInt16} {sc : Bool} {vary : Option Str}, responseTtl status cc sc vary ≠ none →
      status = 200 ∧ sc = false ∧ varyCacheable vary = true := by
    intro status sc vary h
    obtain ⟨ttl, httl⟩ := Option.ne_none_iff_exists'.1 h
    exact (responseTtl_eq_some_iff.1 httl).1
  have hsame : ∀ v, varyCacheable v = true → responseTtl 200 cc false v = responseTtl 200 cc false none := fun v hv =>
    responseTtl_congr_vary hv
  constructor
  · intro h
    obtain ⟨rfl, rfl, hv⟩ := hsome h
    rw [hsame vary hv] at h
    exact ⟨rfl, rfl, hv, h⟩
  · rintro ⟨rfl, rfl, hv, h⟩
    rwa [hsame vary hv]

/-! ## The canonical `Accept-Encoding` -/

theorem mem_acceptTokens {ae : Option Str} {t : Str} :
    t ∈ acceptTokens ae ↔
      t ≠ [] ∧ ∃ part ∈ (ae.getD []).splitOn ',', asciiLower (trim (before ';' part)) = t := by
  unfold acceptTokens
  rw [List.mem_filterMap]
  constructor
  · rintro ⟨part, hp, h⟩
    simp only at h
    split at h
    · cases h
    · rename_i hne
      simp only [Option.some.injEq] at h
      exact ⟨h ▸ hne, part, hp, h⟩
  · rintro ⟨hne, part, hp, h⟩
    exact ⟨part, hp, by simp [h, hne]⟩

theorem comma_not_mem_acceptTokens {ae : Option Str} {t : Str} (h : t ∈ acceptTokens ae) : ',' ∉ t := by
  obtain ⟨-, part, hp, rfl⟩ := mem_acceptTokens.1 h
  rw [Text.mem_asciiLower_iff (by decide) (by decide)]
  exact fun hc => Text.not_mem_of_mem_splitOn hp (Text.before_subset _ _ (Text.trim_subset _ hc))

/-- **Equal canonical forms list the same coding names**, and conversely. -/
theorem normalizeAcceptEncoding_eq_iff (a b : Option Str) :
    normalizeAcceptEncoding a = normalizeAcceptEncoding b ↔ ∀ t, t ∈ acceptTokens a ↔ t ∈ acceptTokens b := by
  have hpieces : ∀ (ae : Option Str), ∀ t ∈ canon (acceptTokens ae), t ≠ [] ∧ ',' ∉ t := fun ae t ht =>
    have hm := Text.mem_canon.1 ht
    ⟨(mem_acceptTokens.1 hm).1, comma_not_mem_acceptTokens hm⟩
  rw [← Text.canon_eq_iff]
  constructor
  · exact fun h => Text.join_injective (hpieces a) (hpieces b) h
  · exact fun h => by unfold normalizeAcceptEncoding; rw [h]

end Zaphyl
