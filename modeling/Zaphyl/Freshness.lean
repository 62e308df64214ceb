import Zaphyl.StoragePolicy
/-!
# Freshness — when a lifetime can be added to the clock

A lifetime is the first `max-age` of `Cache-Control` that is a 64-bit number (`maxAge_eq_some_iff`), and nothing bounds
it before it is added to the time of the answer, or of the request for an HTTP/3 revalidation.  The sum is a time on
every store path exactly when the declared age ends before the clock does (`lifetimes_fit_iff`).
-/
namespace Zaphyl

open Text (trim)

/-! ## The declared age -/

/-- A directive of the form `max-age=n` with a 64-bit `n`. -/
def AgeOf (part : Str) (n : Nat) : Prop :=
  ∃ number, trim part = "max-age=".toList ++ number ∧ Text.parseUnsigned (2 ^ 64) (trim number) = some n

/-- **The age a `Cache-Control` value declares**: that of its first directive with one. -/
def DeclaresAge (cacheControl : Option Str) (n : Nat) : Prop :=
  ∃ value earlier part later, cacheControl = some value ∧ value.splitOn ',' = earlier ++ part :: later ∧ AgeOf part n ∧
    ∀ p ∈ earlier, ∀ m, ¬ AgeOf p m

theorem ageOf_iff (part : Str) (n : Nat) :
    ((trim part).dropPrefix? "max-age=".toList).bind (fun number => Text.parseUnsigned (2 ^ 64) (trim number)) = some n ↔
      AgeOf part n := by
  rw [Option.bind_eq_some_iff]
  unfold AgeOf
  constructor
  · rintro ⟨number, hdrop, hparse⟩
    exact ⟨number, Text.dropPrefix?_eq_some.1 hdrop, hparse⟩
  · rintro ⟨number, heq, hparse⟩
    exact ⟨number, Text.dropPrefix?_eq_some.2 heq, hparse⟩

theorem maxAge_eq_some_iff (cacheControl : Option Str) (n : Nat) :
    cacheControl.bind maxAge = some n ↔ DeclaresAge cacheControl n := by
  have hnone : ∀ p, ((trim p).dropPrefix? "max-age=".toList).bind
      (fun number => Text.parseUnsigned (2 ^ 64) (trim number)) = none ↔ ∀ m, ¬ AgeOf p m := by
    intro p
    rw [Option.eq_none_iff_forall_ne_some]
    exact forall_congr' (fun m => not_congr (ageOf_iff p m))
  rw [Option.bind_eq_some_iff]
  unfold maxAge DeclaresAge
  constructor
  · rintro ⟨value, hvalue, hfind⟩
    obtain ⟨earlier, part, later, hsplit, hpart, hearlier⟩ := List.findSome?_eq_some_iff.1 hfind
    exact ⟨value, earlier, part, later, hvalue, hsplit, (ageOf_iff part n).1 hpart,
      fun p hp => (hnone p).1 (hearlier p hp)⟩
  · rintro ⟨value, earlier, part, later, hvalue, hsplit, hpart, hearlier⟩
    exact ⟨value, hvalue, List.findSome?_eq_some_iff.2 ⟨earlier, part, later, hsplit, (ageOf_iff part n).2 hpart,
      fun p hp => (hnone p).2 (hearlier p hp)⟩⟩

/-! ## What a lifetime is judged by -/

/-- What `response_ttl` is given of a response. -/
structure Judged where
  status : UInt16
  cacheControl : Option Str
  hasSetCookie : Bool
  vary : Option Str

namespace Judged

def ofHead (head : ResponseHead) : Judged :=
  ⟨head.status, head.headers.getStr HeaderName.cacheControl, head.headers.containsKey HeaderName.setCookie,
    head.headers.getStr HeaderName.vary⟩

def ofStored (r : CachedResponse) : Judged :=
  ⟨200, r.header "cache-control".toList, false, r.header "vary".toList⟩

def ttl (j : Judged) : Option Duration := responseTtl j.status j.cacheControl j.hasSetCookie j.vary

theorem ttl_ofHead (head : ResponseHead) : (ofHead head).ttl = upstreamTtl head := rfl

theorem ttl_ofStored (r : CachedResponse) : (ofStored r).ttl = storedTtl r := rfl

/-- A shared cache may store the response for some time. -/
def MayStore (j : Judged) : Prop :=
  j.status = 200 ∧ j.hasSetCookie = false ∧ varyCacheable j.vary = true ∧
    hasDirective j.cacheControl "no-store".toList = false ∧ hasDirective j.cacheControl "no-cache".toList = false ∧
    hasDirective j.cacheControl "private".toList = false

theorem ttl_eq_some_iff (j : Judged) (ttl : Duration) :
    j.ttl = some ttl ↔ j.MayStore ∧ DeclaresAge j.cacheControl ttl ∧ 0 < ttl := by
  unfold Judged.ttl MayStore
  rw [responseTtl_eq_some_iff, ← maxAge_eq_some_iff]
  constructor
  · rintro ⟨⟨hstatus, hcookie, hvary⟩, hdirectives, hage⟩
    exact ⟨⟨hstatus, hcookie, hvary, hdirectives⟩, hage⟩
  · rintro ⟨⟨hstatus, hcookie, hvary, hdirectives⟩, hage⟩
    exact ⟨⟨hstatus, hcookie, hvary⟩, hdirectives, hage⟩

/-- **The age the response declares, if it may be stored, ends before the clock does.** -/
def FitsClock (j : Judged) (base : SystemTime) : Prop :=
  j.MayStore → ∀ n, DeclaresAge j.cacheControl n → base.nanos + n * nanosPerSec < endOfTime

theorem ttl_fits_iff (j : Judged) (base : SystemTime) :
    (∀ ttl, j.ttl = some ttl → ∃ expiry, base.add ttl = .ok expiry) ↔ j.FitsClock base := by
  constructor
  · intro h hstore n hage
    rcases Nat.eq_zero_or_pos n with rfl | hpos
    · -- an age of zero is no lifetime, and adds nothing
      have := base.upper
      omega
    · exact (SystemTime.add_isOk_iff base n).1 (h n ((ttl_eq_some_iff j n).2 ⟨hstore, hage, hpos⟩))
  · intro h ttl httl
    obtain ⟨hstore, hage, -⟩ := (ttl_eq_some_iff j ttl).1 httl
    exact (SystemTime.add_isOk_iff base ttl).2 (h hstore ttl hage)

end Judged

/-! ## The store paths -/

/-- The reading of the clock that a lifetime is added to. -/
def ProxyTask.base (now : SystemTime) : ProxyTask → SystemTime
  | .revalidating .http1 _ _ _ _ => now
  | .revalidating .http3 _ _ _ started => started
  | .fetching _ _ _ _ => now

namespace ProxyConfig

variable (cfg : ProxyConfig)

/-- The response that an answer offers to the cache, and what its lifetime is judged by. -/
def candidate (head : ResponseHead) (chunks : List Bytes) : ProxyTask → Option (Judged × CachedResponse)
  | .revalidating _ _ _ hit _ =>
    match revalidate cfg.maxBody head chunks with
    | .notModified => some (Judged.ofStored hit, hit)
    | .modified fresh => some (Judged.ofStored fresh, fresh)
    | .failed => none
  | .fetching listener req _ route =>
    let fetched := cfg.fetchedHead listener req route head
    (accumulate cfg.maxBody [] chunks).map (fun body =>
      (Judged.ofHead fetched, ⟨fetched.status, storedHeaders fetched.headers, body⟩))

/-- **An answer adds the candidate's lifetime to the task's clock reading**, and stores what the sum allows. -/
theorem outcome_of_candidate {head : ResponseHead} {chunks : List Bytes} {now : SystemTime} {task : ProxyTask}
    {j : Judged} {r : CachedResponse} {ttl : Duration} (h : cfg.candidate head chunks task = some (j, r))
    (httl : j.ttl = some ttl) :
    (cfg.outcome head chunks now task).1 = storeUntil task.key (task.base now) ttl r := by
  cases task with
  | revalidating listener req key hit started =>
    simp only [candidate] at h
    simp only [outcome]
    cases hreval : revalidate cfg.maxBody head chunks with
    | notModified =>
      rw [hreval] at h
      cases h
      rw [Judged.ttl_ofStored] at httl
      rw [httl]
      cases listener <;> rfl
    | modified fresh =>
      rw [hreval] at h
      cases h
      rw [Judged.ttl_ofStored] at httl
      simp only [httl, Option.bind_some]
      cases listener <;> rfl
    | failed =>
      rw [hreval] at h
      cases h
  | fetching listener req key route =>
    obtain ⟨body, hbody, heq⟩ := Option.map_eq_some_iff.1 h
    cases heq
    rw [Judged.ttl_ofHead] at httl
    simp only [outcome, httl, hbody, Option.bind_some]
    rfl

/-- **Every lifetime is added without a panic**: on the store path of a task, the sum is a time and is stored. -/
def AddsLifetimes (head : ResponseHead) (chunks : List Bytes) (now : SystemTime) (task : ProxyTask) : Prop :=
  ∀ j r ttl, cfg.candidate head chunks task = some (j, r) → j.ttl = some ttl →
    ∃ expiry, (task.base now).add ttl = .ok expiry ∧
      (cfg.outcome head chunks now task).1 = some ⟨task.key, expiry, r⟩

/-- **The sum of clock and lifetime is a time exactly when the declared age ends before the clock does**, on every
store path. -/
theorem lifetimes_fit_iff (head : ResponseHead) (chunks : List Bytes) (now : SystemTime) (task : ProxyTask) :
    cfg.AddsLifetimes head chunks now task ↔
      ∀ j r, cfg.candidate head chunks task = some (j, r) → j.FitsClock (task.base now) := by
  constructor
  · intro h j r hcandidate
    refine (Judged.ttl_fits_iff j (task.base now)).1 (fun ttl httl => ?_)
    obtain ⟨expiry, hadd, -⟩ := h j r ttl hcandidate httl
    exact ⟨expiry, hadd⟩
  · intro h j r ttl hcandidate httl
    obtain ⟨expiry, hadd⟩ := (Judged.ttl_fits_iff j (task.base now)).2 (h j r hcandidate) ttl httl
    refine ⟨expiry, hadd, ?_⟩
    rw [cfg.outcome_of_candidate hcandidate httl, storeUntil, hadd]

end ProxyConfig

/-! ## An endless age -/

def endlessHead : ResponseHead := okHead [("cache-control", "max-age=18446744073709551615"), ("etag", "v1")]

def endlessEntry : CachedResponse :=
  ⟨200, [("cache-control".toList, "max-age=18446744073709551615".toList), ("etag".toList, "v1".toList)], []⟩

def plainRoute : Route := Route.new none none [Target.new "127.0.0.1:3000".toList false "127.0.0.1".toList]

/-- A fetch on each listener, and on each a revalidation of the entry. -/
def endlessTasks : List ProxyTask :=
  let req := getWithHost "a.test".toList ['/']
  [.fetching .http1 req [] plainRoute, .fetching .http3 req [] plainRoute,
    .revalidating .http1 req [] endlessEntry SystemTime.epoch, .revalidating .http3 req [] endlessEntry SystemTime.epoch]

/-- **The largest 64-bit age overflows the clock on all four store paths.** -/
theorem endless_age_panics :
    SystemTime.epoch.add (2 ^ 64 - 1) = .error .timeOverflow ∧
      ∀ task ∈ endlessTasks, task.base SystemTime.epoch = SystemTime.epoch ∧
        (oneUpstream.candidate endlessHead [] task).map (fun c => c.1.ttl) = some (some (2 ^ 64 - 1)) ∧
        (oneUpstream.outcome endlessHead [] SystemTime.epoch task).1 = none ∧
        ¬ oneUpstream.AddsLifetimes endlessHead [] SystemTime.epoch task := by
  have hpanic : SystemTime.epoch.add (2 ^ 64 - 1) = .error .timeOverflow := by decide
  -- a lifetime of that many seconds is not added
  have hnot : ∀ task, task.base SystemTime.epoch = SystemTime.epoch →
      (oneUpstream.candidate endlessHead [] task).map (fun c => c.1.ttl) = some (some (2 ^ 64 - 1)) →
      ¬ oneUpstream.AddsLifetimes endlessHead [] SystemTime.epoch task := by
    intro task hbase hcandidate h
    obtain ⟨⟨j, r⟩, hj, httl⟩ := Option.map_eq_some_iff.1 hcandidate
    obtain ⟨expiry, hadd, -⟩ := h j r _ hj httl
    rw [hbase, hpanic] at hadd
    cases hadd
  refine ⟨hpanic, ?_⟩
  simp only [endlessTasks, List.forall_mem_cons]
  refine ⟨⟨rfl, ?_, ?_, hnot _ rfl ?_⟩, ⟨rfl, ?_, ?_, hnot _ rfl ?_⟩, ⟨rfl, ?_, ?_, hnot _ rfl ?_⟩,
    ⟨rfl, ?_, ?_, hnot _ rfl ?_⟩, fun task h => by cases h⟩
  all_goals decide

end Zaphyl
