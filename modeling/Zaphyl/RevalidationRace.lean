import Zaphyl.StoragePolicy
/-!
# RevalidationRace — answers stored in another order than they were given

The steps of the proxy with an origin's answer and its storing apart.  A 304 stores the snapshot that its request took
of the stale entry, whatever was stored in between, so a snapshot can replace the 200 that came after it.  Whenever no
304 stores behind a 200 that was given later, the cache never serves such a snapshot (`never_rolled_back`).
-/
namespace Zaphyl

/-! ## The proxy between answers and puts -/

/-- An answer its task has not stored yet; `time` is its place in the origin's history. -/
structure Answered where
  task : ProxyTask
  head : ResponseHead
  chunks : List Bytes
  time : Nat

/-- Where a stored entry is from: a fetch, a 200 to a revalidation, or a 304 that kept its snapshot. -/
inductive PutSource
  | fetched
  | modified (time : Nat)
  | kept (time : Nat)
deriving DecidableEq

structure Put where
  source : PutSource
  store : Store

structure RaceState where
  cache : ResponseCache
  tasks : List ProxyTask
  answered : List Answered
  clock : Nat
  puts : List Put

inductive RaceEvent
  | request (listener : Listener) (req : Request) (now : SystemTime) (env : Env)
  | answer (i : Nat) (head : ResponseHead) (chunks : List Bytes)
  | store (i : Nat) (now : SystemTime) (env : Env)
  | fail (i : Nat)
  | restart (maxEntries : Nat)

def RaceState.start (cache : ResponseCache) : RaceState := ⟨cache, [], [], 0, []⟩

namespace ProxyConfig

variable (cfg : ProxyConfig)

def putSource (a : Answered) : PutSource :=
  match a.task with
  | .fetching _ _ _ _ => .fetched
  | .revalidating _ _ _ _ _ =>
    match revalidate cfg.maxBody a.head a.chunks with
    | .notModified => .kept a.time
    | _ => .modified a.time

def raceStep (s : RaceState) : RaceEvent → RaceState
  | .request listener req now env =>
    match cfg.lookupOf listener req with
    | none => s
    | some l =>
      match s.cache.lookup cfg.hash env l.key now with
      | .error _ => s
      | .ok (result, cache) => { s with cache := cache, tasks := s.tasks ++ cfg.tasksOf listener req now l result }
  | .answer i head chunks =>
    match s.tasks[i]? with
    | none => s
    | some task =>
      { s with
        tasks := s.tasks.eraseIdx i
        answered := s.answered ++ [⟨task, head, chunks, s.clock⟩]
        clock := s.clock + 1 }
  | .store i now env =>
    match s.answered[i]? with
    | none => s
    | some a =>
      let done := cfg.outcome a.head a.chunks now a.task
      let s := { s with answered := s.answered.eraseIdx i, tasks := s.tasks ++ done.2 }
      match done.1 with
      | some p =>
        { s with
          cache := s.cache.put cfg.hash env p.key p.expiry p.response
          puts := s.puts ++ [⟨cfg.putSource a, p⟩] }
      | none => s
  | .fail i =>
    match s.tasks[i]? with
    | some (.revalidating listener req key _ _) =>
      { s with tasks := s.tasks.eraseIdx i ++ cfg.fetchTask listener req key }
    | some (.fetching _ _ _ _) => { s with tasks := s.tasks.eraseIdx i }
    | none => s
  | .restart maxEntries =>
    match s.cache.disk with
    | some disk => { s with cache := ResponseCache.withDisk maxEntries disk.dir, tasks := [], answered := [] }
    | none => { s with cache := ResponseCache.new maxEntries, tasks := [], answered := [] }

def RaceNext (s : RaceState) (e : RaceEvent) (t : RaceState) : Prop := t = cfg.raceStep s e

/-- **An answer that is stored at once is a step of the proxy.** -/
theorem raceStep_answer_store (s : RaceState) (hnone : s.answered = []) (i : Nat) (head : ResponseHead)
    (chunks : List Bytes) (now : SystemTime) (env : Env) (origin : List ResponseHead) (stored : List CachedResponse) :
    let t := cfg.raceStep (cfg.raceStep s (.answer i head chunks)) (.store 0 now env)
    let u := cfg.step ⟨s.cache, s.tasks, origin, stored⟩ (.answer i head chunks now env)
    t.cache = u.cache ∧ t.tasks = u.tasks ∧ t.answered = [] := by
  simp only [raceStep, step]
  cases htask : s.tasks[i]? with
  | none => simp [hnone]
  | some task =>
    simp only [hnone, List.nil_append, List.getElem?_cons_zero, List.eraseIdx_zero, List.tail_cons]
    cases (cfg.outcome head chunks now task).1 with
    | none => exact ⟨rfl, rfl, rfl⟩
    | some p => exact ⟨rfl, rfl, rfl⟩

end ProxyConfig

/-! ## What is served -/

/-- The last put under a key. -/
def latestPut (puts : List Put) (key : Str) : Option Put := puts.reverse.find? (fun p => p.store.key = key)

theorem latestPut_concat_self (puts : List Put) (p : Put) : latestPut (puts ++ [p]) p.store.key = some p := by
  unfold latestPut
  rw [List.reverse_concat, List.find?_cons_of_pos (by simp)]

theorem latestPut_concat_ne (puts : List Put) {p : Put} {key : Str} (h : key ≠ p.store.key) :
    latestPut (puts ++ [p]) key = latestPut puts key := by
  unfold latestPut
  rw [List.reverse_concat, List.find?_cons_of_neg (by simpa using h.symm)]

/-- No 200 to a revalidation that was given after `time` has been stored under the key. -/
def NoneLater (puts : List Put) (key : Str) (time : Nat) : Prop :=
  ∀ p ∈ puts, p.store.key = key → ∀ t, p.source = .modified t → t ≤ time

/-- **The entry is no snapshot from before a stored 200**: it is the last put under its key, and if a 304 kept it, no
200 that was given later had been stored. -/
def NotRolledBack (puts : List Put) (key : Str) (r : CachedResponse) : Prop :=
  ∃ p, latestPut puts key = some p ∧ p.store.response = r ∧
    ∀ time, p.source = .kept time → NoneLater puts key time

def RaceState.Serves (s : RaceState) (hash : Str → UInt64) (key : Str) (r : CachedResponse) : Prop :=
  ∃ env now result cache, s.cache.lookup hash env key now = .ok (result, cache) ∧
    (result = .fresh r ∨ result = .stale r)

/-- The tiers hold last puts only. -/
def LatestFile (hash : Str → UInt64) (puts : List Put) (name : FileName) (file : File) : Prop :=
  ∃ key expiry r, name = DiskStore.path hash key ∧ NotRolledBack puts key r ∧ Codec.Fits key r ∧
    file.bytes = Codec.encode key expiry r

/-- A 304 stores only while no 200 that was given later is stored under its key; and an entry fits a file where there
is a disk tier. -/
def RaceState.InOrder (cfg : ProxyConfig) (s : RaceState) : RaceEvent → Prop
  | .store i now _ => ∀ a, s.answered[i]? = some a →
      (∀ time, cfg.putSource a = .kept time → NoneLater s.puts a.task.key time) ∧
      ∀ p, (cfg.outcome a.head a.chunks now a.task).1 = some p → s.cache.disk ≠ none → Codec.Fits p.key p.response
  | .request _ _ _ _ => True
  | .answer _ _ _ => True
  | .fail _ => True
  | .restart _ => True

/-- **Both tiers hold entries that are not rolled back.** -/
abbrev RaceState.Settled (hash : Str → UInt64) (s : RaceState) : Prop :=
  s.cache.Holds (fun key _ r => NotRolledBack s.puts key r) (LatestFile hash s.puts)

variable {cfg : ProxyConfig}

theorem notRolledBack_concat_ne {puts : List Put} {p : Put} {key : Str} {r : CachedResponse} (hkey : key ≠ p.store.key)
    (h : NotRolledBack puts key r) : NotRolledBack (puts ++ [p]) key r := by
  obtain ⟨q, hq, hr, hnone⟩ := h
  refine ⟨q, by rw [latestPut_concat_ne puts hkey]; exact hq, hr, fun time ht x hx hk t hmod => ?_⟩
  rcases List.mem_append.1 hx with hx | hx
  · exact hnone time ht x hx hk t hmod
  · rw [List.mem_singleton] at hx
    subst hx
    exact absurd hk.symm hkey

theorem notRolledBack_concat_self {puts : List Put} {p : Put}
    (h : ∀ time, p.source = .kept time → NoneLater puts p.store.key time) :
    NotRolledBack (puts ++ [p]) p.store.key p.store.response := by
  refine ⟨p, latestPut_concat_self puts p, rfl, fun time ht x hx hk t hmod => ?_⟩
  rcases List.mem_append.1 hx with hx | hx
  · exact h time ht x hx hk t hmod
  · rw [List.mem_singleton] at hx
    subst hx
    rw [ht] at hmod
    cases hmod

theorem RaceState.Settled.readDisk {s : RaceState} {hash : Str → UInt64} (hs : s.Settled hash) {key : Str}
    {expiry : SystemTime} {r : CachedResponse} (hread : s.cache.readDisk hash key = .ok (some (expiry, r))) :
    NotRolledBack s.puts key r := by
  refine ResponseCache.Holds.readDisk (Q := NotRolledBack s.puts) hs ?_ hread
  rintro name file ⟨stored, e, r, -, hnot, hfits, hbytes⟩
  exact ⟨stored, e, r, hnot, hfits, hbytes⟩

theorem settled_put {s : RaceState} {hash : Str → UInt64} (hs : s.Settled hash) (env : Env) (p : Put)
    (horder : ∀ time, p.source = .kept time → NoneLater s.puts p.store.key time)
    (hfits : s.cache.disk ≠ none → Codec.Fits p.store.key p.store.response) :
    (s.cache.put hash env p.store.key p.store.expiry p.store.response).Holds
      (fun key _ r => NotRolledBack (s.puts ++ [p]) key r) (LatestFile hash (s.puts ++ [p])) := by
  have hnew := notRolledBack_concat_self horder
  refine ResponseCache.Holds.put hs (fun hk hM => notRolledBack_concat_ne hk hM) ?_ hnew
    (fun hd => ⟨_, _, _, rfl, hnew, hfits hd, rfl⟩)
  -- any other file is of another key
  rintro name file hname ⟨key, e, r, rfl, hnot, hrest⟩
  have hk : key ≠ p.store.key := fun hk => hname (by rw [hk])
  exact ⟨key, e, r, rfl, notRolledBack_concat_ne hk hnot, hrest⟩

theorem settled_step {s : RaceState} {e : RaceEvent} (hs : s.Settled cfg.hash) (horder : s.InOrder cfg e) :
    (cfg.raceStep s e).Settled cfg.hash := by
  cases e with
  | request listener req now env =>
    simp only [ProxyConfig.raceStep]
    split
    · exact hs
    · rename_i l hl
      split
      · exact hs
      · rename_i result cache hlookup
        exact (ResponseCache.Holds.lookup hs hs.readDisk hlookup).1
  | answer i head chunks =>
    simp only [ProxyConfig.raceStep]
    split
    · exact hs
    · exact hs
  | store i now env =>
    simp only [ProxyConfig.raceStep]
    split
    · exact hs
    · rename_i a ha
      cases hp : (cfg.outcome a.head a.chunks now a.task).1 with
      | none => exact hs
      | some p =>
        obtain ⟨hkept, hfits⟩ := horder a ha
        rw [← key_of_outcome hp] at hkept
        exact settled_put hs env ⟨cfg.putSource a, p⟩ hkept (hfits p hp)
  | fail i =>
    simp only [ProxyConfig.raceStep]
    split
    · exact hs
    · exact hs
    · exact hs
  | restart maxEntries =>
    simp only [ProxyConfig.raceStep]
    cases hd : s.cache.disk with
    | none => exact ResponseCache.holds_new maxEntries
    | some disk => exact ResponseCache.holds_withDisk maxEntries (hs.files hd)

/-- **A revalidation never rolls the cache back**, in every run in which no 304 stores behind a 200 that was given
later: what a lookup serves is no snapshot from before a stored 200. -/
theorem never_rolled_back (cfg : ProxyConfig) (c₀ : ResponseCache)
    (h₀ : ∃ maxEntries, c₀ = ResponseCache.new maxEntries ∨ c₀ = ResponseCache.withDisk maxEntries ∅)
    {events : List RaceEvent} {s : RaceState}
    (hrun : Runs.Run (Runs.Run.Where cfg.RaceNext (RaceState.InOrder cfg)) (RaceState.start c₀) events s)
    {key : Str} {r : CachedResponse} (hserved : s.Serves cfg.hash key r) : NotRolledBack s.puts key r := by
  have hstart : (RaceState.start c₀).Settled cfg.hash := by
    obtain ⟨maxEntries, rfl | rfl⟩ := h₀
    · exact ResponseCache.holds_new maxEntries
    · exact ResponseCache.holds_withDisk_empty maxEntries
  have hs : s.Settled cfg.hash :=
    hrun.invariant_where (fun _ _ t hc horder ht => by rw [ht]; exact settled_step hc horder) hstart
  obtain ⟨env, now, result, cache, hlookup, hr⟩ := hserved
  obtain ⟨-, hnot⟩ := (ResponseCache.Holds.lookup hs hs.readDisk hlookup).2 r hr
  exact hnot

/-! ## A rolled-back entry -/

def pageRequest (listener : Listener) (now : SystemTime) : RaceEvent :=
  .request listener (getWithHost "a.test".toList ['/']) now Env.kept

def unchangedHead : ResponseHead := ⟨304, ⟨[]⟩⟩

def newHead : ResponseHead := okHead [("cache-control", "max-age=60"), ("etag", "v2")]

/-- What `taggedHead` is stored as. -/
def taggedEntry : CachedResponse :=
  ⟨200, [("cache-control".toList, "max-age=1".toList), ("etag".toList, "v1".toList)], []⟩

/-- A fetched entry gets stale, and the origin confirms it. -/
def confirmedEvents : List RaceEvent :=
  [pageRequest .http1 firstSecond, .answer 0 taggedHead [], .store 0 firstSecond Env.kept,
    pageRequest .http1 thirdSecond, .answer 0 unchangedHead [], .store 0 thirdSecond Env.kept]

def runRace (events : List RaceEvent) : RaceState :=
  events.foldl oneUpstream.raceStep (RaceState.start (ResponseCache.new 8))

def pageKey : Str := cacheKey "a.test".toList ['/'] none

theorem confirmedEvents_inOrder : Runs.Run (Runs.Run.Where oneUpstream.RaceNext (RaceState.InOrder oneUpstream))
    (RaceState.start (ResponseCache.new 8)) confirmedEvents (runRace confirmedEvents) := by
  have hfetched : (runRace (confirmedEvents.take 5)).puts.map Put.source = [.fetched] := by decide
  refine .cons ⟨rfl, trivial⟩ <| .cons ⟨rfl, trivial⟩ <| .cons ⟨rfl, fun a ha => ⟨fun time ht => ?_, fun p hp hd =>
    absurd rfl hd⟩⟩ <| .cons ⟨rfl, trivial⟩ <| .cons ⟨rfl, trivial⟩ <| .cons ⟨rfl, fun a ha => ⟨fun time ht => ?_,
    fun p hp hd => absurd rfl hd⟩⟩ <| .nil _
  · cases ha
    cases ht
  · intro p hp hkey t hmod
    have hsource : p.source ∈ (runRace (confirmedEvents.take 5)).puts.map Put.source := List.mem_map_of_mem hp
    rw [hfetched, hmod] at hsource
    cases hsource with
    | tail _ h => cases h

theorem confirmedEvents_not_rolled_back :
    (runRace confirmedEvents).Serves oneUpstream.hash pageKey taggedEntry ∧
      NotRolledBack (runRace confirmedEvents).puts pageKey taggedEntry :=
  have hserved : (runRace confirmedEvents).Serves oneUpstream.hash pageKey taggedEntry :=
    ⟨Env.kept, thirdSecond, _, _, rfl, Or.inl (by decide)⟩
  ⟨hserved, never_rolled_back oneUpstream (ResponseCache.new 8) ⟨8, Or.inl rfl⟩ confirmedEvents_inOrder hserved⟩

/-- Two requests take snapshots; the origin confirms the one, then changes and answers the other, which stores first. -/
def rolledBackEvents : List RaceEvent :=
  [pageRequest .http1 firstSecond, .answer 0 taggedHead [], .store 0 firstSecond Env.kept,
    pageRequest .http1 thirdSecond, pageRequest .http1 thirdSecond, .answer 0 unchangedHead [], .answer 0 newHead [],
    .store 1 thirdSecond Env.kept, .store 0 thirdSecond Env.kept]

/-- **A confirmed snapshot replaces the response that came after it, and is served as fresh.** -/
theorem rolledBackEvents_roll_back :
    Runs.Run oneUpstream.RaceNext (RaceState.start (ResponseCache.new 8)) rolledBackEvents (runRace rolledBackEvents) ∧
      (runRace rolledBackEvents).puts.map Put.source = [.fetched, .modified 2, .kept 1] ∧
      (runRace rolledBackEvents).Serves oneUpstream.hash pageKey taggedEntry ∧
      ¬ NotRolledBack (runRace rolledBackEvents).puts pageKey taggedEntry := by
  refine ⟨.cons rfl <| .cons rfl <| .cons rfl <| .cons rfl <| .cons rfl <| .cons rfl <| .cons rfl <| .cons rfl <|
    .cons rfl <| .nil _, by decide, ⟨Env.kept, thirdSecond, _, _, rfl, Or.inl (by decide)⟩, ?_⟩
  rintro ⟨p, hlatest, -, hnone⟩
  have hsource : (latestPut (runRace rolledBackEvents).puts pageKey).map Put.source = some (.kept 1) := by decide
  have hlater : (runRace rolledBackEvents).puts.any (fun p => p.store.key = pageKey && p.source = .modified 2) = true := by
    decide
  rw [hlatest, Option.map_some, Option.some.injEq] at hsource
  obtain ⟨later, hmem, hmod⟩ := List.any_eq_true.1 hlater
  rw [Bool.and_eq_true, decide_eq_true_eq, decide_eq_true_eq] at hmod
  have := hnone 1 hsource later hmem hmod.1 2 hmod.2
  omega

end Zaphyl
