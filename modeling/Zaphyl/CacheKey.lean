import Zaphyl.CachePolicy
/-!
# CacheKey — the key a request is looked up under

Both listeners take the host, the path and query and `Accept-Encoding` of a cacheable request, and join them into one
key.  The codings are cut off by a unit separator no header text contains; host and path are joined by nothing, so the
key says no more than their concatenation (`cacheKey_eq_iff`).
-/
namespace Zaphyl

open Text (before)

/-- What a listener remembers of a request it looks up in the cache. -/
structure CacheLookup where
  key : Str
  ifNoneMatch : Option Str
  host : Str
  pathAndQuery : Str
deriving DecidableEq

def cacheLookup (host : Str) (req : Request) : Option CacheLookup :=
  let cc := req.headers.getStr HeaderName.cacheControl
  let hasAuth := req.headers.containsKey HeaderName.authorization
  if requestCacheable req.method cc hasAuth then
    let pathAndQuery := req.uri.pathAndQueryOr
    let acceptEncoding := req.headers.getStr HeaderName.acceptEncoding
    some ⟨cacheKey host pathAndQuery acceptEncoding, req.headers.getStr HeaderName.ifNoneMatch, host, pathAndQuery⟩
  else none

namespace ZaphylProxy

def headerHost (req : Request) : Option Str := (req.headers.getStr HeaderName.host).map (before ':')

def cacheLookup (req : Request) : Option CacheLookup := Zaphyl.cacheLookup ((headerHost req).getD []) req

end ZaphylProxy

theorem cacheLookup_eq_some {host : Str} {req : Request} {l : CacheLookup} (h : cacheLookup host req = some l) :
    l.host = host ∧ l.pathAndQuery = req.uri.pathAndQueryOr ∧
      l.key = cacheKey host req.uri.pathAndQueryOr (req.headers.getStr HeaderName.acceptEncoding) := by
  unfold cacheLookup at h
  simp only at h
  split at h
  · rw [Option.some.injEq] at h
    subst h
    exact ⟨rfl, rfl, rfl⟩
  · cases h

/-- Only a GET is looked up. -/
theorem method_of_cacheLookup {host : Str} {req : Request} {l : CacheLookup} (h : cacheLookup host req = some l) :
    req.method = "GET".toList := by
  unfold cacheLookup requestCacheable at h
  simp only at h
  split at h
  · rename_i hcacheable
    simp only [Bool.and_eq_true, beq_iff_eq] at hcacheable
    exact hcacheable.1.1.1
  · cases h

/-! ## What a key determines -/

def SameCodings (a b : Option Str) : Prop := ∀ t, t ∈ acceptTokens a ↔ t ∈ acceptTokens b

theorem unitSep_not_mem_getStr (headers : HeaderMap) (n : HeaderName) :
    unitSep ∉ (headers.getStr n).getD [] := by
  unfold HeaderMap.getStr
  cases hv : (headers.get n).bind HeaderValue.toStr with
  | none => simp
  | some s =>
    obtain ⟨v, -, hs⟩ := Option.bind_eq_some_iff.1 hv
    intro hmem
    have hc := HeaderValue.toNat_of_mem_toStr hs (by simpa using hmem)
    have hsep : unitSep.toNat = 31 := rfl
    omega

theorem unitSep_not_mem_normalize {ae : Option Str} (h : unitSep ∉ ae.getD []) :
    unitSep ∉ normalizeAcceptEncoding ae := by
  intro hmem
  rcases Text.mem_of_mem_join hmem with hc | ⟨t, ht, hc⟩
  · exact absurd hc (by decide)
  · obtain ⟨-, part, hpart, rfl⟩ := mem_acceptTokens.1 (Text.mem_canon.1 ht)
    rw [Text.mem_asciiLower_iff (by decide) (by decide)] at hc
    have hin : unitSep ∈ part := Text.before_subset _ _ (Text.trim_subset _ hc)
    exact h (Text.subset_of_mem_splitOn hpart hin)

/-- **Equal keys are equal concatenations with equal codings**, for codings free of the separator. -/
theorem cacheKey_eq_iff {host host' pq pq' : Str} {ae ae' : Option Str} (h : unitSep ∉ ae.getD [])
    (h' : unitSep ∉ ae'.getD []) :
    cacheKey host pq ae = cacheKey host' pq' ae' ↔ host ++ pq = host' ++ pq' ∧ SameCodings ae ae' := by
  unfold cacheKey SameCodings
  rw [← normalizeAcceptEncoding_eq_iff]
  constructor
  · exact Text.append_cons_inj (unitSep_not_mem_normalize h) (unitSep_not_mem_normalize h')
  · rintro ⟨hcat, hnorm⟩
    rw [hcat, hnorm]

/-- The second lookup's host is the first's with the start of the first's path appended. -/
def Shifted (l m : CacheLookup) : Prop :=
  ∃ t, m.host = l.host ++ '/' :: t ∧ l.pathAndQuery = '/' :: t ++ m.pathAndQuery

theorem append_eq_append_iff_shifted {l m : CacheLookup} (hl : l.pathAndQuery.head? = some '/')
    (hm : m.pathAndQuery.head? = some '/') :
    l.host ++ l.pathAndQuery = m.host ++ m.pathAndQuery ↔
      l.host = m.host ∧ l.pathAndQuery = m.pathAndQuery ∨ Shifted l m ∨ Shifted m l := by
  -- the part by which one host is longer starts the other's path
  have hsplit : ∀ {l m : CacheLookup}, l.pathAndQuery.head? = some '/' → ∀ {t : Str}, m.host = l.host ++ t →
      l.pathAndQuery = t ++ m.pathAndQuery → l.host = m.host ∧ l.pathAndQuery = m.pathAndQuery ∨ Shifted l m := by
    intro l m hl t hhost hpath
    cases t with
    | nil => exact Or.inl ⟨by simp [hhost], by simpa using hpath⟩
    | cons c t =>
      rw [hpath, List.cons_append, List.head?_cons, Option.some.injEq] at hl
      subst hl
      exact Or.inr ⟨t, hhost, hpath⟩
  constructor
  · intro h
    rcases List.append_eq_append_iff.1 h with ⟨t, hhost, hpath⟩ | ⟨t, hhost, hpath⟩
    · exact (hsplit hl hhost hpath).imp_right Or.inl
    · rcases hsplit hm hhost hpath with ⟨h1, h2⟩ | h'
      · exact Or.inl ⟨h1.symm, h2.symm⟩
      · exact Or.inr (Or.inr h')
  · rintro (⟨h1, h2⟩ | ⟨t, h1, h2⟩ | ⟨t, h1, h2⟩)
    · rw [h1, h2]
    · rw [h1, h2, List.append_assoc]
    · rw [h1, h2, List.append_assoc]

theorem Shifted.host_ne {l m : CacheLookup} (h : Shifted l m) : l.host ≠ m.host := by
  obtain ⟨t, hhost, -⟩ := h
  rw [hhost]
  intro heq
  simpa using congrArg List.length heq

/-- **Two requests are kept apart by their keys unless one's host is the other's with part of its path.** -/
theorem cacheKey_separates_iff (a b : Request) {l m : CacheLookup} (ha : ZaphylProxy.cacheLookup a = some l)
    (hb : ZaphylProxy.cacheLookup b = some m) (hl : l.pathAndQuery.head? = some '/')
    (hm : m.pathAndQuery.head? = some '/') :
    (l.key = m.key → l.host = m.host ∧ l.pathAndQuery = m.pathAndQuery ∧
      SameCodings (a.headers.getStr HeaderName.acceptEncoding) (b.headers.getStr HeaderName.acceptEncoding)) ↔
    ¬ ((Shifted l m ∨ Shifted m l) ∧
      SameCodings (a.headers.getStr HeaderName.acceptEncoding) (b.headers.getStr HeaderName.acceptEncoding)) := by
  obtain ⟨hlh, hlp, hlk⟩ := cacheLookup_eq_some ha
  obtain ⟨hmh, hmp, hmk⟩ := cacheLookup_eq_some hb
  have hkey : l.key = m.key ↔ l.host ++ l.pathAndQuery = m.host ++ m.pathAndQuery ∧
      SameCodings (a.headers.getStr HeaderName.acceptEncoding) (b.headers.getStr HeaderName.acceptEncoding) := by
    rw [hlk, hmk, hlh, hlp, hmh, hmp]
    exact cacheKey_eq_iff (unitSep_not_mem_getStr _ _) (unitSep_not_mem_getStr _ _)
  rw [hkey, append_eq_append_iff_shifted hl hm]
  constructor
  · rintro h ⟨hshift, hsame⟩
    obtain ⟨hhost, -, -⟩ := h ⟨Or.inr hshift, hsame⟩
    rcases hshift with hs | hs
    · exact hs.host_ne hhost
    · exact hs.host_ne hhost.symm
  · rintro h ⟨⟨h1, h2⟩ | hshift, hsame⟩
    · exact ⟨h1, h2, hsame⟩
    · exact absurd ⟨hshift, hsame⟩ h

def getWithHost (host path : Str) : Request :=
  ⟨"GET".toList, ⟨none, some path⟩, ⟨((HeaderValue.ofStr host).map (fun v => (HeaderName.host, v))).toList⟩⟩

theorem cacheKey_separates_plain_hosts :
    ∃ l m, ZaphylProxy.cacheLookup (getWithHost "a".toList "/b/c".toList) = some l ∧
      ZaphylProxy.cacheLookup (getWithHost "a".toList "/b".toList) = some m ∧
      ((l.key = m.key → l.host = m.host ∧ l.pathAndQuery = m.pathAndQuery ∧ SameCodings none none) ↔
        ¬ ((Shifted l m ∨ Shifted m l) ∧ SameCodings none none)) :=
  ⟨_, _, rfl, rfl, cacheKey_separates_iff (getWithHost "a".toList "/b/c".toList) (getWithHost "a".toList "/b".toList)
    rfl rfl rfl rfl⟩

/-- **A request for host `a/b` shares the key of one for host `a`.** -/
theorem cacheKey_shared_by_two_hosts :
    ∃ l m, ZaphylProxy.cacheLookup (getWithHost "a/b".toList "/c".toList) = some l ∧
      ZaphylProxy.cacheLookup (getWithHost "a".toList "/b/c".toList) = some m ∧
      l.key = m.key ∧ l.host ≠ m.host ∧ l.pathAndQuery ≠ m.pathAndQuery :=
  ⟨_, _, rfl, rfl, by decide, by decide, by decide⟩

end Zaphyl
