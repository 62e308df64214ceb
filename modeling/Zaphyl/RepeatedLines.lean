import Zaphyl.HeaderLists
/-!
# RepeatedLines — a list header over several lines

The values of a list header may stand in one line or in several, and the two forms mean the same.  Both listeners read
the first line of a name; an entry's stored headers are read at their first line too.  Splitting the lines changes no
decision exactly where no later line would have changed it (`repeated_lines_iff`).
-/
namespace Zaphyl

/-! ## One line for several -/

def Request.joined (blanks : Blanks) (req : Request) : Request :=
  { req with
    headers := (req.headers.joined blanks HeaderName.cacheControl).joined blanks HeaderName.acceptEncoding }

def ResponseHead.joined (blanks : Blanks) (head : ResponseHead) : ResponseHead :=
  { head with headers := (head.headers.joined blanks HeaderName.cacheControl).joined blanks HeaderName.vary }

/-! ## What lines say -/

def ForbidsStoring (line : Str) : Prop :=
  ∃ d ∈ ["no-store".toList, "no-cache".toList, "private".toList], hasDirective (some line) d = true

def ForbidsAnswer (line : Str) : Prop :=
  ∃ d ∈ ["no-store".toList, "no-cache".toList], hasDirective (some line) d = true

section
variable (read : List HeaderValue → Option Str) (cacheControl vary : List HeaderValue)

/-- The line that is read gives the response a lifetime. -/
def FirstGives : Prop :=
  ∃ line n, read cacheControl = some line ∧ ¬ ForbidsStoring line ∧ maxAge line = some n ∧ 0 < n ∧
    varyCacheable (read vary) = true

/-- Some line forbids storing, names another header the response varies on, or cannot be read. -/
def LinesForbid : Prop :=
  ¬ Readable cacheControl ∨ (∃ line ∈ texts cacheControl, ForbidsStoring line) ∨
    Readable vary ∧ ∃ line ∈ texts vary, varyCacheable (some line) = false

/-- The lines together give a lifetime. -/
def LinesGive (n : Nat) : Prop :=
  ¬ LinesForbid cacheControl vary ∧ (texts cacheControl).findSome? maxAge = some n ∧ 0 < n

/-- The line that is read has no age, or names another header the response varies on. -/
def FirstLacks : Prop :=
  (∃ line, read cacheControl = some line ∧ maxAge line = none) ∨ varyCacheable (read vary) = false

/-- **A line that is not read would change the lifetime**: it forbids what the line that is read gives, or the lines
together give what that line lacks. -/
def LaterLinesCount : Prop :=
  FirstGives read cacheControl vary ∧ LinesForbid cacheControl vary ∨
    (∃ n, LinesGive cacheControl vary n) ∧ FirstLacks read cacheControl vary

end

/-- The line that is read forbids an answer from the cache. -/
def FirstRefuses (cacheControl : List HeaderValue) : Prop :=
  ∃ line, firstLine cacheControl = some line ∧ ForbidsAnswer line

/-- A line that is not read would change whether the request may be answered from the cache. -/
def LaterRefusalCounts (cacheControl : List HeaderValue) : Prop :=
  FirstRefuses cacheControl ∧ ¬ Readable cacheControl ∨
    ¬ FirstRefuses cacheControl ∧ Readable cacheControl ∧ ∃ line ∈ texts cacheControl, ForbidsAnswer line

/-- A line that is not read would change the codings of the key. -/
def LaterCodingsCount (acceptEncoding : List HeaderValue) : Prop :=
  (Readable acceptEncoding ∧
    ∃ line ∈ texts acceptEncoding, ∃ t ∈ acceptTokens (some line),
      t ∉ acceptTokens (firstLine acceptEncoding)) ∨
  ¬ Readable acceptEncoding ∧ acceptTokens (firstLine acceptEncoding) ≠ []

/-- **The request is looked up otherwise when its lines are one.** -/
def Request.LinesCount (req : Request) : Prop :=
  req.method = "GET".toList ∧ req.headers.containsKey HeaderName.authorization = false ∧
    (LaterRefusalCounts (req.headers.values HeaderName.cacheControl) ∨
      ¬ FirstRefuses (req.headers.values HeaderName.cacheControl) ∧
        LaterCodingsCount (req.headers.values HeaderName.acceptEncoding))

/-- The response has another lifetime when its lines are one. -/
def ResponseHead.LinesCount (head : ResponseHead) : Prop :=
  head.status = 200 ∧ head.headers.containsKey HeaderName.setCookie = false ∧
    LaterLinesCount firstLine (head.headers.values HeaderName.cacheControl) (head.headers.values HeaderName.vary)

/-- The response that a listener judges, before any compression. -/
def judgedHead (listener : Listener) (route : Route) (head : ResponseHead) : ResponseHead :=
  match listener with
  | .http1 => head
  | .http3 => relayHead route head

/-! ## The lifetime of the whole and of the first line -/

theorem forbidsStoring_iff (line : Str) :
    ForbidsStoring line ↔ hasDirective (some line) "no-store".toList = true ∨
      hasDirective (some line) "no-cache".toList = true ∨ hasDirective (some line) "private".toList = true := by
  simp [ForbidsStoring]

theorem forbidsAnswer_iff (line : Str) :
    ForbidsAnswer line ↔ hasDirective (some line) "no-store".toList = true ∨
      hasDirective (some line) "no-cache".toList = true := by
  simp [ForbidsAnswer]

section
variable {read : List HeaderValue → Option Str} (blanks : Blanks) (cacheControl vary : List HeaderValue)

/-- **The whole lines give a lifetime exactly when the lines together do.** -/
theorem ttl_wholeLine_iff (n : Nat) :
    responseTtl 200 (wholeLine blanks cacheControl) false (wholeLine blanks vary) = some n ↔
      LinesGive cacheControl vary n := by
  have hdirective : ∀ d, hasDirective (wholeLine blanks cacheControl) d = false ↔
      ¬ (Readable cacheControl ∧ ∃ line ∈ texts cacheControl, hasDirective (some line) d = true) := fun d => by
    rw [← hasDirective_wholeLine blanks, Bool.not_eq_true]
  have hvary : varyCacheable (wholeLine blanks vary) = true ↔
      ¬ (Readable vary ∧ ∃ line ∈ texts vary, varyCacheable (some line) = false) := by
    rw [← varyCacheable_wholeLine blanks, Bool.not_eq_false]
  rw [responseTtl_eq_some_iff, maxAge_wholeLine, hdirective, hdirective, hdirective, hvary]
  unfold LinesGive LinesForbid
  simp only [forbidsStoring_iff]
  constructor
  · rintro ⟨⟨-, -, hv⟩, ⟨h1, h2, h3⟩, ⟨hr, hage⟩, hpos⟩
    refine ⟨?_, hage, hpos⟩
    rintro (h | ⟨line, hline, h | h | h⟩ | h)
    · exact h hr
    · exact h1 ⟨hr, line, hline, h⟩
    · exact h2 ⟨hr, line, hline, h⟩
    · exact h3 ⟨hr, line, hline, h⟩
    · exact hv h
  · rintro ⟨hforbid, hage, hpos⟩
    rw [not_or, not_or, not_not] at hforbid
    obtain ⟨hr, hnone, hv⟩ := hforbid
    refine ⟨⟨trivial, trivial, hv⟩, ⟨?_, ?_, ?_⟩, ⟨hr, hage⟩, hpos⟩
    · exact fun ⟨_, line, hline, h⟩ => hnone ⟨line, hline, Or.inl h⟩
    · exact fun ⟨_, line, hline, h⟩ => hnone ⟨line, hline, Or.inr (Or.inl h)⟩
    · exact fun ⟨_, line, hline, h⟩ => hnone ⟨line, hline, Or.inr (Or.inr h)⟩

theorem ttl_read_iff (n : Nat) :
    responseTtl 200 (read cacheControl) false (read vary) = some n ↔
      ∃ line, read cacheControl = some line ∧ ¬ ForbidsStoring line ∧ maxAge line = some n ∧ 0 < n ∧
        varyCacheable (read vary) = true := by
  rw [responseTtl_eq_some_iff]
  simp only [forbidsStoring_iff, not_or, Bool.not_eq_true]
  constructor
  · rintro ⟨⟨-, -, hv⟩, hdirectives, hage, hpos⟩
    obtain ⟨line, hline, hage⟩ := Option.bind_eq_some_iff.1 hage
    rw [hline] at hdirectives
    exact ⟨line, hline, hdirectives, hage, hpos, hv⟩
  · rintro ⟨line, hline, hdirectives, hage, hpos, hv⟩
    rw [hline]
    exact ⟨⟨trivial, trivial, hv⟩, hdirectives, hage, hpos⟩

theorem linesGive_iff_of_firstGives (hread : ReadsFirst read) {line : Str} {n : Nat} (hline : read cacheControl = some line)
    (hage : maxAge line = some n) (hpos : 0 < n) :
    LinesGive cacheControl vary n ↔ ¬ LinesForbid cacheControl vary := by
  obtain ⟨rest, hrest⟩ := List.head?_eq_some_iff.1 (hread.text hline)
  have hfind : (texts cacheControl).findSome? maxAge = some n := by rw [hrest, List.findSome?_cons, hage]
  exact ⟨fun h => h.1, fun h => ⟨h, hfind, hpos⟩⟩

theorem not_firstLacks (h : FirstGives read cacheControl vary) : ¬ FirstLacks read cacheControl vary := by
  obtain ⟨line, n, hline, -, hage, -, hv⟩ := h
  rintro (⟨line', hline', hnone⟩ | hnone)
  · rw [hline] at hline'
    rw [← Option.some.inj hline', hage] at hnone
    cases hnone
  · rw [hv] at hnone
    cases hnone

/-- Where the lines together give a lifetime and the one that is read gives none, it lacks an age or its `Vary`. -/
theorem firstLacks_of_linesGive (hread : ReadsFirst read) (hfirst : ¬ FirstGives read cacheControl vary) {n : Nat}
    (h : LinesGive cacheControl vary n) : FirstLacks read cacheControl vary := by
  obtain ⟨hforbid, hage, hpos⟩ := h
  unfold LinesForbid at hforbid
  rw [not_or, not_or, not_not] at hforbid
  obtain ⟨hr, hstore, -⟩ := hforbid
  cases htexts : texts cacheControl with
  | nil =>
    rw [htexts] at hage
    cases hage
  | cons line lines =>
    have hline : read cacheControl = some line := by rw [hread.readable hr, htexts]; rfl
    rw [htexts, List.findSome?_cons] at hage
    cases hfound : maxAge line with
    | none => exact Or.inl ⟨line, hline, hfound⟩
    | some m =>
      rw [hfound] at hage
      rw [← Option.some.inj hage] at hpos
      right
      rw [Bool.eq_false_iff]
      intro hv
      have hallowed : ¬ ForbidsStoring line := fun h => hstore ⟨line, by rw [htexts]; simp, h⟩
      exact hfirst ⟨line, m, hline, hallowed, hfound, hpos, hv⟩

/-- **One line for several changes no lifetime exactly when no line that is not read counts.** -/
theorem same_ttl_iff (hread : ReadsFirst read) :
    responseTtl 200 (wholeLine blanks cacheControl) false (wholeLine blanks vary) =
        responseTtl 200 (read cacheControl) false (read vary) ↔
      ¬ LaterLinesCount read cacheControl vary := by
  unfold LaterLinesCount
  by_cases hfirst : FirstGives read cacheControl vary
  · -- the line that is read gives a lifetime: the others can only forbid it
    have hlacks := not_firstLacks cacheControl vary hfirst
    obtain ⟨line, n, hline, hstore, hage, hpos, hv⟩ := hfirst
    have hgives := linesGive_iff_of_firstGives cacheControl vary hread hline hage hpos
    have hfirst : FirstGives read cacheControl vary := ⟨line, n, hline, hstore, hage, hpos, hv⟩
    rw [(ttl_read_iff cacheControl vary n).2 ⟨line, hline, hstore, hage, hpos, hv⟩, ttl_wholeLine_iff, hgives,
      and_iff_right hfirst, or_iff_left (fun h => hlacks h.2)]
  · -- it gives none: the others may together
    have hnone : responseTtl 200 (read cacheControl) false (read vary) = none := by
      rw [Option.eq_none_iff_forall_ne_some]
      intro n hn
      obtain ⟨line, hline⟩ := (ttl_read_iff cacheControl vary n).1 hn
      exact hfirst ⟨line, n, hline⟩
    have hlacks : (∃ n, LinesGive cacheControl vary n) → FirstLacks read cacheControl vary :=
      fun ⟨n, h⟩ => firstLacks_of_linesGive cacheControl vary hread hfirst h
    rw [hnone, or_iff_right (fun h => hfirst h.1), and_iff_left_of_imp hlacks, Option.eq_none_iff_forall_ne_some]
    simp only [ne_eq, ttl_wholeLine_iff, not_exists]

end

/-! ## Lookups -/

namespace Request

variable (blanks : Blanks) (req : Request)

theorem getStr_joined_cacheControl :
    (req.joined blanks).headers.getStr HeaderName.cacheControl =
      wholeLine blanks (req.headers.values HeaderName.cacheControl) := by
  have hother : HeaderName.acceptEncoding ≠ HeaderName.cacheControl := by decide
  unfold joined
  rw [HeaderMap.getStr_joined_ne blanks _ hother, HeaderMap.getStr_eq_firstLine, HeaderMap.firstLine_joined]

theorem getStr_joined_acceptEncoding :
    (req.joined blanks).headers.getStr HeaderName.acceptEncoding =
      wholeLine blanks (req.headers.values HeaderName.acceptEncoding) := by
  have hother : HeaderName.cacheControl ≠ HeaderName.acceptEncoding := by decide
  unfold joined
  rw [HeaderMap.getStr_eq_firstLine, HeaderMap.firstLine_joined, HeaderMap.values_joined_ne blanks _ hother]

theorem getStr_joined_other {n : HeaderName} (hcc : HeaderName.cacheControl ≠ n)
    (hae : HeaderName.acceptEncoding ≠ n) :
    (req.joined blanks).headers.getStr n = req.headers.getStr n := by
  unfold joined
  rw [HeaderMap.getStr_joined_ne blanks _ hae, HeaderMap.getStr_joined_ne blanks _ hcc]

theorem containsKey_joined_other {n : HeaderName} (hcc : HeaderName.cacheControl ≠ n)
    (hae : HeaderName.acceptEncoding ≠ n) : (req.joined blanks).headers.containsKey n = req.headers.containsKey n := by
  unfold joined
  rw [HeaderMap.containsKey_joined_ne blanks _ hae, HeaderMap.containsKey_joined_ne blanks _ hcc]

end Request

theorem requestCacheable_iff (method : Str) (cacheControl : Option Str) (hasAuth : Bool) :
    requestCacheable method cacheControl hasAuth = true ↔ (method = "GET".toList ∧ hasAuth = false) ∧
      ¬ (hasDirective cacheControl "no-store".toList = true ∨
        hasDirective cacheControl "no-cache".toList = true) := by
  unfold requestCacheable
  simp [and_assoc]

theorem firstRefuses_iff (lines : List HeaderValue) :
    FirstRefuses lines ↔ hasDirective (firstLine lines) "no-store".toList = true ∨
      hasDirective (firstLine lines) "no-cache".toList = true := by
  unfold FirstRefuses
  simp only [forbidsAnswer_iff]
  cases firstLine lines with
  | none => simp [hasDirective]
  | some line => simp

theorem wholeRefuses_iff (blanks : Blanks) (lines : List HeaderValue) :
    (hasDirective (wholeLine blanks lines) "no-store".toList = true ∨
      hasDirective (wholeLine blanks lines) "no-cache".toList = true) ↔
      Readable lines ∧ ∃ line ∈ texts lines, ForbidsAnswer line := by
  rw [hasDirective_wholeLine, hasDirective_wholeLine]
  simp only [forbidsAnswer_iff]
  constructor
  · rintro (⟨hr, line, hline, h⟩ | ⟨hr, line, hline, h⟩)
    · exact ⟨hr, line, hline, Or.inl h⟩
    · exact ⟨hr, line, hline, Or.inr h⟩
  · rintro ⟨hr, line, hline, h⟩
    exact h.imp (fun h => ⟨hr, line, hline, h⟩) (fun h => ⟨hr, line, hline, h⟩)

/-- The first line is one of those that are text. -/
theorem refuses_of_firstRefuses {lines : List HeaderValue} (h : FirstRefuses lines) :
    ∃ line ∈ texts lines, ForbidsAnswer line := by
  obtain ⟨line, hline, hforbids⟩ := h
  exact ⟨line, List.mem_of_head? (readsFirst_firstLine.text hline), hforbids⟩

/-- A request is refused by its whole line as by its first one exactly when no later line counts. -/
theorem same_refusal_iff (lines : List HeaderValue) :
    (FirstRefuses lines ↔ Readable lines ∧ ∃ line ∈ texts lines, ForbidsAnswer line) ↔
      ¬ LaterRefusalCounts lines := by
  unfold LaterRefusalCounts
  by_cases hfirst : FirstRefuses lines
  · have hsome := refuses_of_firstRefuses hfirst
    simp [hfirst, hsome]
  · simp [hfirst]

/-- The key is that of the first line exactly when no later line has another coding. -/
theorem same_codings_iff (blanks : Blanks) (lines : List HeaderValue) :
    normalizeAcceptEncoding (wholeLine blanks lines) = normalizeAcceptEncoding (firstLine lines) ↔
      ¬ LaterCodingsCount lines := by
  rw [normalizeAcceptEncoding_eq_iff]
  simp only [mem_acceptTokens_wholeLine]
  unfold LaterCodingsCount
  by_cases hr : Readable lines
  · simp only [hr, true_and, not_true, false_and, or_false]
    constructor
    · rintro h ⟨line, hline, t, ht, hnot⟩
      exact hnot ((h t).1 ⟨line, hline, ht⟩)
    · intro h t
      constructor
      · rintro ⟨line, hline, ht⟩
        by_contra hnot
        exact h ⟨line, hline, t, ht, hnot⟩
      · intro ht
        have hnone : acceptTokens none = [] := by decide
        cases hfirst : firstLine lines with
        | none =>
          rw [hfirst, hnone] at ht
          cases ht
        | some line =>
          rw [hfirst] at ht
          exact ⟨line, List.mem_of_head? (readsFirst_firstLine.text hfirst), ht⟩
  · simp only [hr, false_and, not_false_eq_true, true_and, false_or, not_not, false_iff]
    exact List.eq_nil_iff_forall_not_mem.symm

section
variable (blanks : Blanks) (host : Str) (req : Request)

/-- A lookup by what is read of the request's `Cache-Control` and `Accept-Encoding`. -/
theorem cacheLookup_of_lines (cacheControl acceptEncoding : Option Str)
    (hcc : req.headers.getStr HeaderName.cacheControl = cacheControl)
    (hae : req.headers.getStr HeaderName.acceptEncoding = acceptEncoding) :
    cacheLookup host req =
      if requestCacheable req.method cacheControl (req.headers.containsKey HeaderName.authorization) then
        some ⟨cacheKey host req.uri.pathAndQueryOr acceptEncoding, req.headers.getStr HeaderName.ifNoneMatch, host,
          req.uri.pathAndQueryOr⟩
      else none := by
  rw [← hcc, ← hae]
  rfl

theorem cacheLookup_first :
    cacheLookup host req =
      if requestCacheable req.method (firstLine (req.headers.values HeaderName.cacheControl))
          (req.headers.containsKey HeaderName.authorization) then
        some ⟨cacheKey host req.uri.pathAndQueryOr (firstLine (req.headers.values HeaderName.acceptEncoding)),
          req.headers.getStr HeaderName.ifNoneMatch, host, req.uri.pathAndQueryOr⟩
      else none :=
  cacheLookup_of_lines host req _ _ (HeaderMap.getStr_eq_firstLine ..) (HeaderMap.getStr_eq_firstLine ..)

theorem cacheLookup_joined :
    cacheLookup host (req.joined blanks) =
      if requestCacheable req.method (wholeLine blanks (req.headers.values HeaderName.cacheControl))
          (req.headers.containsKey HeaderName.authorization) then
        some ⟨cacheKey host req.uri.pathAndQueryOr (wholeLine blanks (req.headers.values HeaderName.acceptEncoding)),
          req.headers.getStr HeaderName.ifNoneMatch, host, req.uri.pathAndQueryOr⟩
      else none := by
  have hauth := req.containsKey_joined_other blanks (n := HeaderName.authorization) (by decide) (by decide)
  have htag := req.getStr_joined_other blanks (n := HeaderName.ifNoneMatch) (by decide) (by decide)
  rw [cacheLookup_of_lines host (req.joined blanks) _ _ (req.getStr_joined_cacheControl blanks)
    (req.getStr_joined_acceptEncoding blanks), hauth, htag]
  rfl

/-- For one host, a request is looked up alike exactly when its later lines count for nothing. -/
theorem same_cacheLookup_iff : cacheLookup host (req.joined blanks) = cacheLookup host req ↔ ¬ req.LinesCount := by
  rw [cacheLookup_joined, cacheLookup_first]
  have hwhole := requestCacheable_iff req.method (wholeLine blanks (req.headers.values HeaderName.cacheControl))
    (req.headers.containsKey HeaderName.authorization)
  have hfirst := requestCacheable_iff req.method (firstLine (req.headers.values HeaderName.cacheControl))
    (req.headers.containsKey HeaderName.authorization)
  rw [wholeRefuses_iff] at hwhole
  rw [← firstRefuses_iff] at hfirst
  unfold Request.LinesCount
  by_cases hplain : req.method = "GET".toList ∧ req.headers.containsKey HeaderName.authorization = false
  · rw [and_iff_right hplain] at hwhole hfirst
    rw [and_iff_right hplain.1, and_iff_right hplain.2, not_or, ← same_refusal_iff]
    by_cases hrefused : FirstRefuses (req.headers.values HeaderName.cacheControl)
    · -- refused by the first line: alike exactly when refused by the whole
      have hno : ¬ requestCacheable req.method (firstLine (req.headers.values HeaderName.cacheControl))
          (req.headers.containsKey HeaderName.authorization) = true := fun h => hfirst.1 h hrefused
      rw [if_neg hno, iff_true_left hrefused]
      simp only [hrefused, not_true, false_and, not_false_eq_true, and_true]
      rw [← not_not (a := Readable _ ∧ _), ← hwhole]
      split
      · rename_i h
        simp [h]
      · rename_i h
        simp [h]
    · -- looked up by the first line: alike exactly when by the whole, and under the same key
      have hyes := hfirst.2 hrefused
      rw [if_pos hyes, iff_false_left hrefused, ← hwhole]
      simp only [hrefused, not_false_eq_true, true_and]
      rw [← same_codings_iff blanks]
      split
      · rename_i h
        simp [h, cacheKey]
      · rename_i h
        simp [h]
  · have hwhole' : ¬ requestCacheable req.method (wholeLine blanks (req.headers.values HeaderName.cacheControl))
        (req.headers.containsKey HeaderName.authorization) = true := fun h => hplain (hwhole.1 h).1
    have hfirst' : ¬ requestCacheable req.method (firstLine (req.headers.values HeaderName.cacheControl))
        (req.headers.containsKey HeaderName.authorization) = true := fun h => hplain (hfirst.1 h).1
    rw [if_neg hwhole', if_neg hfirst']
    exact iff_of_true rfl (fun h => hplain ⟨h.1, h.2.1⟩)

end

/-- **A request is looked up alike exactly when its later lines count for nothing.** -/
theorem same_lookup_iff (cfg : ProxyConfig) (blanks : Blanks) (listener : Listener) (req : Request) :
    cfg.lookupOf listener (req.joined blanks) = cfg.lookupOf listener req ↔ ¬ req.LinesCount := by
  cases listener with
  | http1 =>
    have hsame : ZaphylProxy.headerHost (req.joined blanks) = ZaphylProxy.headerHost req := by
      unfold ZaphylProxy.headerHost
      rw [req.getStr_joined_other blanks (by decide) (by decide)]
    show cacheLookup ((ZaphylProxy.headerHost (req.joined blanks)).getD []) _ = cacheLookup _ _ ↔ _
    rw [hsame]
    exact same_cacheLookup_iff blanks _ req
  | http3 => exact same_cacheLookup_iff blanks ((cfg.uriHost req.uri).getD []) req

/-! ## Lifetimes -/

theorem read_joined_cacheControl {read : List HeaderValue → Option Str} (blanks : Blanks)
    (hread : ∀ (m : HeaderMap) n, read ((m.joined blanks n).values n) = wholeLine blanks (m.values n))
    (head : ResponseHead) : read ((head.joined blanks).headers.values HeaderName.cacheControl) =
      wholeLine blanks (head.headers.values HeaderName.cacheControl) := by
  have hother : HeaderName.vary ≠ HeaderName.cacheControl := by decide
  unfold ResponseHead.joined
  rw [HeaderMap.values_joined_ne blanks _ hother, hread]

theorem read_joined_vary {read : List HeaderValue → Option Str} (blanks : Blanks)
    (hread : ∀ (m : HeaderMap) n, read ((m.joined blanks n).values n) = wholeLine blanks (m.values n))
    (head : ResponseHead) : read ((head.joined blanks).headers.values HeaderName.vary) =
      wholeLine blanks (head.headers.values HeaderName.vary) := by
  have hother : HeaderName.cacheControl ≠ HeaderName.vary := by decide
  unfold ResponseHead.joined
  rw [hread, HeaderMap.values_joined_ne blanks _ hother]

/-- The route's header is one line, and stands for all the origin sent. -/
theorem firstLine_relayHead_joined {n : HeaderName} (hn : n ∉ hopNames) (blanks : Blanks) (route : Route)
    (head : ResponseHead)
    (hread : firstLine ((head.joined blanks).headers.values n) = wholeLine blanks (head.headers.values n)) :
    firstLine ((relayHead route (head.joined blanks)).headers.values n) =
      wholeLine blanks ((relayHead route head).headers.values n) := by
  rw [values_relayHead hn, values_relayHead hn]
  cases (Multimap.valuesAt n route.responseLines).getLast? with
  | none => exact hread
  | some v => rfl

theorem containsKey_setCookie_joined (blanks : Blanks) (head : ResponseHead) :
    (head.joined blanks).headers.containsKey HeaderName.setCookie = head.headers.containsKey HeaderName.setCookie := by
  unfold ResponseHead.joined
  rw [HeaderMap.containsKey_joined_ne blanks _ (by decide), HeaderMap.containsKey_joined_ne blanks _ (by decide)]

/-- What the listener judges when the origin's lines are one. -/
theorem upstreamTtl_judgedHead_joined (blanks : Blanks) (listener : Listener) (route : Route) (head : ResponseHead) :
    upstreamTtl (judgedHead listener route (head.joined blanks)) =
      responseTtl (judgedHead listener route head).status
        (wholeLine blanks ((judgedHead listener route head).headers.values HeaderName.cacheControl))
        ((judgedHead listener route head).headers.containsKey HeaderName.setCookie)
        (wholeLine blanks ((judgedHead listener route head).headers.values HeaderName.vary)) := by
  have hjoined : ∀ (m : HeaderMap) n,
      firstLine ((m.joined blanks n).values n) = wholeLine blanks (m.values n) := fun m n =>
    m.firstLine_joined blanks n
  have hcc := read_joined_cacheControl blanks hjoined head
  have hvary := read_joined_vary blanks hjoined head
  have hcookie := containsKey_setCookie_joined blanks head
  unfold upstreamTtl
  rw [HeaderMap.getStr_eq_firstLine, HeaderMap.getStr_eq_firstLine]
  cases listener with
  | http1 =>
    show responseTtl head.status (firstLine ((head.joined blanks).headers.values _)) _
      (firstLine ((head.joined blanks).headers.values _)) = _
    rw [hcc, hvary]
    exact congrArg (fun c => responseTtl head.status _ c _) hcookie
  | http3 =>
    show responseTtl head.status (firstLine ((relayHead route (head.joined blanks)).headers.values _)) _
      (firstLine ((relayHead route (head.joined blanks)).headers.values _)) = _
    rw [firstLine_relayHead_joined (by decide) blanks route head hcc,
      firstLine_relayHead_joined (by decide) blanks route head hvary]
    refine congrArg (fun c => responseTtl head.status _ c _) ?_
    show (relayHead route (head.joined blanks)).headers.containsKey _ = (relayHead route head).headers.containsKey _
    rw [containsKey_relayHead (by decide), containsKey_relayHead (by decide), hcookie]

/-- **A response has one lifetime in one line and in several exactly when its later lines count for nothing.** -/
theorem same_upstreamTtl_iff (cfg : ProxyConfig) (blanks : Blanks) (listener : Listener) (req : Request) (route : Route)
    (head : ResponseHead) :
    upstreamTtl (cfg.fetchedHead listener req route (head.joined blanks)) =
        upstreamTtl (cfg.fetchedHead listener req route head) ↔
      ¬ (judgedHead listener route head).LinesCount := by
  have hjudged : ∀ h, upstreamTtl (cfg.fetchedHead listener req route h) =
      upstreamTtl (judgedHead listener route h) := by
    intro h
    cases listener with
    | http1 => exact upstreamTtl_compress cfg.compressor req h
    | http3 => rfl
  rw [hjudged, hjudged, upstreamTtl_judgedHead_joined]
  unfold upstreamTtl ResponseHead.LinesCount
  rw [HeaderMap.getStr_eq_firstLine, HeaderMap.getStr_eq_firstLine]
  by_cases hplain : (judgedHead listener route head).status = 200 ∧
      (judgedHead listener route head).headers.containsKey HeaderName.setCookie = false
  · rw [hplain.1, hplain.2, same_ttl_iff blanks _ _ readsFirst_firstLine]
    simp
  · have hnone : ∀ cc vary, responseTtl (judgedHead listener route head).status cc
        ((judgedHead listener route head).headers.containsKey HeaderName.setCookie) vary = none := by
      intro cc vary
      rw [Option.eq_none_iff_forall_ne_some]
      intro ttl httl
      obtain ⟨⟨hstatus, hcookie, -⟩, -⟩ := responseTtl_eq_some_iff.1 httl
      exact hplain ⟨hstatus, hcookie⟩
    rw [hnone, hnone]
    exact iff_of_true rfl (fun h => hplain ⟨h.1, h.2.1⟩)

/-! ## Stored responses -/

/-- **A stored header is read at its first line that is text.** -/
theorem header_storedHeaders_eq {n : HeaderName} (hn : isUncacheableHeader n.text = false) (status : UInt16)
    (body : Bytes) (m : HeaderMap) :
    (CachedResponse.mk status (storedHeaders m) body).header n.text = firstText (m.values n) := by
  obtain ⟨lines⟩ := m
  unfold CachedResponse.header firstText texts HeaderMap.values
  simp only
  induction lines with
  | nil => rfl
  | cons l lines ih =>
    rw [storedHeaders_cons]
    by_cases hl : l.1 = n
    · have hsame : Text.eqIgnoreAsciiCase l.1.text n.text = true := (eqIgnoreAsciiCase_text_iff _ _).2 hl
      have hkept : isUncacheableHeader l.1.text = false := by rw [hl, hn]
      rw [Multimap.valuesAt_cons_self hl, hkept]
      cases htext : l.2.toStr with
      | none =>
        rw [List.filterMap_cons_none htext, Option.map_none]
        exact ih
      | some s =>
        rw [List.filterMap_cons_some htext, Option.map_some]
        simp only [Bool.false_eq_true, if_false, Option.toList_some, List.singleton_append, List.find?_cons, hsame,
          Option.map_some, List.head?_cons]
    · have hne : Text.eqIgnoreAsciiCase l.1.text n.text ≠ true := fun he => hl ((eqIgnoreAsciiCase_text_iff _ _).1 he)
      -- the line is dropped, or kept under another name
      have hskip : (if isUncacheableHeader l.1.text then [] else (l.2.toStr.map (fun s => (l.1.text, s))).toList).find?
          (fun h => Text.eqIgnoreAsciiCase h.1 n.text) = none := by
        split
        · rfl
        · cases l.2.toStr with
          | none => rfl
          | some v => exact List.find?_cons_of_neg hne
      rw [Multimap.valuesAt_cons_ne hl, List.find?_append, hskip, Option.none_or]
      exact ih

/-- The lifetime that a revalidation's answer gives the response it stores. -/
def revalidatedTtl (maxBody : Nat) (head : ResponseHead) (chunks : List Bytes) : Option Duration :=
  match revalidate maxBody head chunks with
  | .modified fresh => storedTtl fresh
  | .notModified => none
  | .failed => none

/-- The response that a revalidation stores has another lifetime when its lines are one. -/
def ResponseHead.StoredLinesCount (maxBody : Nat) (head : ResponseHead) (chunks : List Bytes) : Prop :=
  head.status = 200 ∧ chunks.flatten.length ≤ maxBody ∧
    LaterLinesCount firstText (head.headers.values HeaderName.cacheControl) (head.headers.values HeaderName.vary)

theorem revalidatedTtl_of_modified {maxBody : Nat} {head : ResponseHead} {chunks : List Bytes}
    (hstatus : head.status = 200) (hbody : chunks.flatten.length ≤ maxBody) :
    revalidatedTtl maxBody head chunks = responseTtl 200 (firstText (head.headers.values HeaderName.cacheControl)) false
      (firstText (head.headers.values HeaderName.vary)) := by
  have hmodified : revalidate maxBody head chunks = .modified ⟨200, storedHeaders head.headers, chunks.flatten⟩ := by
    unfold revalidate
    rw [hstatus, if_neg (by decide), if_pos rfl, if_neg (by omega)]
  unfold revalidatedTtl
  rw [hmodified]
  show responseTtl 200 ((CachedResponse.mk _ _ _).header HeaderName.cacheControl.text) false
    ((CachedResponse.mk _ _ _).header HeaderName.vary.text) = _
  rw [header_storedHeaders_eq (by decide), header_storedHeaders_eq (by decide)]

theorem revalidatedTtl_of_failed {maxBody : Nat} {head : ResponseHead} {chunks : List Bytes}
    (h : ¬ (head.status = 200 ∧ chunks.flatten.length ≤ maxBody)) : revalidatedTtl maxBody head chunks = none := by
  unfold revalidatedTtl revalidate
  by_cases hstatus : head.status = 200
  · have hbody : chunks.flatten.length > maxBody := Nat.lt_of_not_le (fun hle => h ⟨hstatus, hle⟩)
    rw [hstatus, if_neg (by decide), if_pos rfl, if_pos hbody]
  · rw [if_neg hstatus]
    split <;> rename_i heq
    · split at heq <;> cases heq
    · rfl
    · rfl

theorem same_revalidatedTtl_iff (blanks : Blanks) (maxBody : Nat) (head : ResponseHead) (chunks : List Bytes) :
    revalidatedTtl maxBody (head.joined blanks) chunks = revalidatedTtl maxBody head chunks ↔
      ¬ head.StoredLinesCount maxBody chunks := by
  have hstatus : (head.joined blanks).status = head.status := rfl
  have hjoined : ∀ (m : HeaderMap) n,
      firstText ((m.joined blanks n).values n) = wholeLine blanks (m.values n) := fun m n =>
    m.firstText_joined blanks n
  unfold ResponseHead.StoredLinesCount
  by_cases h : head.status = 200 ∧ chunks.flatten.length ≤ maxBody
  · rw [revalidatedTtl_of_modified h.1 h.2, revalidatedTtl_of_modified (hstatus.trans h.1) h.2,
      read_joined_cacheControl blanks hjoined, read_joined_vary blanks hjoined,
      same_ttl_iff blanks _ _ readsFirst_firstText, and_iff_right h.1, and_iff_right h.2]
  · have hfailed : revalidatedTtl maxBody (head.joined blanks) chunks = none := revalidatedTtl_of_failed h
    rw [revalidatedTtl_of_failed h, hfailed]
    exact iff_of_true rfl (fun hc => h ⟨hc.1, hc.2.1⟩)

/-- **Lines and one line decide alike exactly when no line that is not read counts**: in the lookup of a request, in the
lifetime of a fetched response and in that of one a revalidation stores. -/
theorem repeated_lines_iff (cfg : ProxyConfig) (blanks : Blanks) (listener : Listener) (req : Request) (route : Route)
    (head : ResponseHead) (chunks : List Bytes) :
    (cfg.lookupOf listener (req.joined blanks) = cfg.lookupOf listener req ∧
      upstreamTtl (cfg.fetchedHead listener req route (head.joined blanks)) =
        upstreamTtl (cfg.fetchedHead listener req route head) ∧
      revalidatedTtl cfg.maxBody (head.joined blanks) chunks = revalidatedTtl cfg.maxBody head chunks) ↔
      ¬ req.LinesCount ∧ ¬ (judgedHead listener route head).LinesCount ∧
        ¬ head.StoredLinesCount cfg.maxBody chunks :=
  and_congr (same_lookup_iff cfg blanks listener req)
    (and_congr (same_upstreamTtl_iff cfg blanks listener req route head)
      (same_revalidatedTtl_iff blanks cfg.maxBody head chunks))

/-! ## A second line -/

def noBlanks : Blanks := ⟨[], by simp⟩

/-- A request with these lines for `a.test`. -/
def getWithLines (lines : List (String × String)) : Request :=
  ⟨"GET".toList, ⟨none, some ['/']⟩, (okHead (("host", "a.test") :: lines)).headers⟩

/-- **A private response whose `private` stands on a second line is stored by both listeners**, as is one that varies
on `Cookie` by a second line, and `no-cache` on a second line is not heard. -/
theorem second_line_unread :
    let twice := okHead [("cache-control", "max-age=60"), ("cache-control", "private")]
    let varied := okHead [("cache-control", "max-age=60"), ("vary", "Accept-Encoding"), ("vary", "Cookie")]
    let refused := getWithLines [("cache-control", "max-age=0"), ("cache-control", "no-cache")]
    let route := Route.new none none []
    (∀ listener ∈ [Listener.http1, Listener.http3],
      upstreamTtl (oneUpstream.fetchedHead listener refused route twice) = some 60 ∧
      upstreamTtl (oneUpstream.fetchedHead listener refused route (twice.joined noBlanks)) = none ∧
      upstreamTtl (oneUpstream.fetchedHead listener refused route varied) = some 60 ∧
      upstreamTtl (oneUpstream.fetchedHead listener refused route (varied.joined noBlanks)) = none) ∧
    (oneUpstream.lookupOf .http1 refused).isSome = true ∧
    oneUpstream.lookupOf .http1 (refused.joined noBlanks) = none := by
  decide

end Zaphyl
