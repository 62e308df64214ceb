import Zaphyl.BoundedMap
import Zaphyl.CacheStore
/-!
# MemoryTier — the bound and the eviction rule of the map in memory

Puts insert into the map, and so do lookups that the disk answers.  Every insertion is one into a map of bounded size
that gives up the entry soonest to expire, so the bound holds in every state a cache comes to and each operation drops
at most one entry, a fresh one never while it holds an expired one (`memory_tier_bounded`).
-/
namespace Zaphyl

/-- A put or a lookup, with what the run-time leaves open in it. -/
inductive TierOp
  | put (env : Env) (key : Str) (expiry : SystemTime) (response : CachedResponse)
  | lookup (env : Env) (key : Str) (now : SystemTime)

namespace TierOp

def key : TierOp → Str
  | .put _ key _ _ => key
  | .lookup _ key _ => key

/-- The cache after an operation; a lookup that panics on the disk leaves it as it was. -/
def step (hash : Str → UInt64) (c : ResponseCache) : TierOp → ResponseCache
  | .put env key expiry response => c.put hash env key expiry response
  | .lookup env key now =>
    match c.lookup hash env key now with
    | .ok (_, c') => c'
    | .error _ => c

end TierOp

namespace ResponseCache

/-- A new cache, over a directory when it has a disk tier. -/
def opened (maxEntries : Nat) : Option Dir → ResponseCache
  | none => new maxEntries
  | some dir => withDisk maxEntries dir

/-- What an operation may do to the map in memory. -/
structure TierStep (bound : Nat) (op : TierOp) (c c' : ResponseCache) : Prop where
  put_present : ∀ env key expiry response, op = .put env key expiry response →
    c'.entries.lookup key = some (expiry, response)
  present_keeps : op.key ∈ c.entries → ∀ k, k ≠ op.key → c'.entries.lookup k = c.entries.lookup k
  evicts_soonest : ∀ victim ∈ c.entries, victim ∉ c'.entries →
    BoundedMap.Yields bound (fun e => e.1.nanos) c.entries op.key victim
  evicts_one : ∀ victim ∈ c.entries, victim ∉ c'.entries →
    ∀ k, k ≠ op.key → k ≠ victim → c'.entries.lookup k = c.entries.lookup k
  else_unchanged : (∀ k ∈ c.entries, k ∈ c'.entries) → ∀ k, k ≠ op.key → c'.entries.lookup k = c.entries.lookup k

variable {hash : Str → UInt64} {c : ResponseCache}

/-! ## One operation -/

/-- The map is bounded by what the cache was opened with. -/
structure Bounded (maxEntries : Nat) (c : ResponseCache) : Prop where
  bound : c.maxEntries = max 1 maxEntries
  length : c.entries.entries.length ≤ max 1 maxEntries

theorem insertMemory_entries (env : Env) (c : ResponseCache) (key : Str) (expiry : SystemTime)
    (response : CachedResponse) : (c.insertMemory env key expiry response).entries =
      BoundedMap.insert c.maxEntries env.entriesOrder (fun e => e.1.nanos) c.entries key (expiry, response) := by
  unfold insertMemory BoundedMap.insert BoundedMap.makeRoom
  by_cases hfull : c.maxEntries ≤ c.entries.entries.length ∧ key ∉ c.entries
  · rw [if_pos hfull, if_pos hfull]
    cases Iteration.minByKey (fun e => e.2.1.nanos) (env.entriesOrder.arrange c.entries.entries) with
    | none => rfl
    | some oldest => rfl
  · rw [if_neg hfull, if_neg hfull]

/-- **An operation leaves the map alone or inserts its key**; a put inserts what it was given. -/
theorem step_cases (hash : Str → UInt64) (c : ResponseCache) (op : TierOp) :
    ((op.step hash c).entries = c.entries ∧ (op.step hash c).maxEntries = c.maxEntries ∧
      ∀ env key expiry response, op ≠ .put env key expiry response) ∨
    ∃ env expiry response, (op.step hash c).entries = (c.insertMemory env op.key expiry response).entries ∧
      (op.step hash c).maxEntries = c.maxEntries ∧
      ∀ env' key expiry' response', op = .put env' key expiry' response' → expiry = expiry' ∧ response = response' := by
  cases op with
  | put env key expiry response =>
    refine Or.inr ⟨env, expiry, response, rfl, rfl, fun env' key' expiry' response' h => ?_⟩
    cases h
    exact ⟨rfl, rfl⟩
  | lookup env key now =>
    have hnot : ∀ env' key' expiry response, TierOp.lookup env key now ≠ .put env' key' expiry response := by
      intro _ _ _ _ h
      cases h
    simp only [TierOp.step, TierOp.key]
    rcases lookup_cases hash env c key now with ⟨_, _, -, hl⟩ | ⟨expiry, response, -, hl⟩ | ⟨-, hl⟩ | ⟨_, -, hl⟩
    · rw [hl]
      exact Or.inl ⟨rfl, rfl, hnot⟩
    · rw [hl]
      exact Or.inr ⟨env, expiry, response, rfl, rfl, fun _ _ _ _ h => absurd h (hnot _ _ _ _)⟩
    · rw [hl]
      exact Or.inl ⟨rfl, rfl, hnot⟩
    · rw [hl]
      exact Or.inl ⟨rfl, rfl, hnot⟩

theorem Bounded.step {maxEntries : Nat} (h : c.Bounded maxEntries) (op : TierOp) :
    (op.step hash c).Bounded maxEntries := by
  rcases step_cases hash c op with ⟨hentries, hmax, -⟩ | ⟨env, expiry, response, hentries, hmax, -⟩
  · exact ⟨by rw [hmax]; exact h.bound, by rw [hentries]; exact h.length⟩
  · refine ⟨by rw [hmax]; exact h.bound, ?_⟩
    rw [hentries, insertMemory_entries, h.bound]
    exact BoundedMap.length_insert_le (by omega) h.length

theorem opened_bounded (maxEntries : Nat) (dir : Option Dir) : (opened maxEntries dir).Bounded maxEntries := by
  cases dir with
  | none => exact ⟨Nat.max_comm _ _, Nat.zero_le _⟩
  | some dir => exact ⟨Nat.max_comm _ _, Nat.zero_le _⟩

theorem Bounded.run {maxEntries : Nat} (ops : List TierOp) (h : c.Bounded maxEntries) :
    (ops.foldl (TierOp.step hash) c).Bounded maxEntries := by
  induction ops generalizing c with
  | nil => exact h
  | cons op ops ih => exact ih (h.step op)

theorem Bounded.tierStep {maxEntries : Nat} (h : c.Bounded maxEntries) (op : TierOp) :
    TierStep (max 1 maxEntries) op c (op.step hash c) := by
  rcases step_cases hash c op with ⟨hentries, -, hnot⟩ | ⟨env, expiry, response, hentries, -, hput⟩
  · -- nothing was inserted
    have hkeeps : ∀ k, (op.step hash c).entries.lookup k = c.entries.lookup k := fun k => by rw [hentries]
    refine ⟨fun _ _ _ _ hop => absurd hop (hnot _ _ _ _), fun _ k _ => hkeeps k, fun victim hv hgone => ?_,
      fun _ _ _ k _ _ => hkeeps k, fun _ k _ => hkeeps k⟩
    rw [hentries] at hgone
    exact absurd hv hgone
  · rw [insertMemory_entries, h.bound] at hentries
    have hself : (op.step hash c).entries.lookup op.key = some (expiry, response) := by
      rw [hentries]
      exact BoundedMap.lookup_insert_self
    have hputs : ∀ env key expiry' response', op = .put env key expiry' response' →
        (op.step hash c).entries.lookup key = some (expiry', response') := by
      intro env key expiry' response' hop
      obtain ⟨rfl, rfl⟩ := hput _ _ _ _ hop
      have hkey : op.key = key := by rw [hop, TierOp.key]
      rw [← hkey, hself]
    have hroom : 0 < max 1 maxEntries := by omega
    rcases BoundedMap.lookup_insert hroom env.entriesOrder (fun e => e.1.nanos) c.entries op.key (expiry, response) with
      ⟨-, hsame⟩ | ⟨victim, hy, hgone, hsame⟩
    · rw [← hentries] at hsame
      -- every key of the map is still there, so none was dropped
      have hstays : ∀ k ∈ c.entries, k ∈ (op.step hash c).entries := by
        intro k hk
        by_cases hkey : k = op.key
        · rw [hkey, ← AList.lookup_isSome, hself]
          rfl
        · rwa [← AList.lookup_isSome, hsame k hkey, AList.lookup_isSome]
      exact ⟨hputs, fun _ => hsame, fun v hv hgone => absurd (hstays v hv) hgone, fun _ _ _ k hk _ => hsame k hk,
        fun _ => hsame⟩
    · rw [← hentries] at hgone hsame
      have hone : ∀ v ∈ c.entries, v ∉ (op.step hash c).entries → v = victim := by
        intro v hv hvgone
        by_contra hne
        have hkey : v ≠ op.key := fun hk => hy.absent (hk ▸ hv)
        exact hvgone (by rwa [← AList.lookup_isSome, hsame v hkey hne, AList.lookup_isSome])
      refine ⟨hputs, fun hkey => absurd hkey hy.absent, fun v hv hvgone => hone v hv hvgone ▸ hy,
        fun v hv hvgone k hk hkv => hsame k hk (hone v hv hvgone ▸ hkv), fun hall => ?_⟩
      exact absurd (hall victim hy.held) hgone

/-! ## Every run -/

/-- **The map in memory keeps its bound and gives up the entry soonest to expire.**  After any puts and lookups of a
cache opened with any bound, 0 included, over any directory or none, the map holds no more than the bound, or one entry,
and the next operation puts what it is given, drops nothing when it inserts a key that is there, and otherwise drops at
most one entry, whose expiry no other's comes before: never a fresh one while the map holds an expired one. -/
theorem memory_tier_bounded (hash : Str → UInt64) (maxEntries : Nat) (dir : Option Dir) (ops : List TierOp)
    (op : TierOp) :
    let c := ops.foldl (TierOp.step hash) (opened maxEntries dir)
    c.entries.entries.length ≤ max 1 maxEntries ∧ TierStep (max 1 maxEntries) op c (op.step hash c) ∧
      ∀ victim ∈ c.entries, victim ∉ (op.step hash c).entries → ∀ now e, c.entries.lookup victim = some e →
        e.1.after now = true → ∀ k e', c.entries.lookup k = some e' → e'.1.after now = true := by
  intro c
  have hbounded : c.Bounded maxEntries := (opened_bounded maxEntries dir).run ops
  have hstep : TierStep (max 1 maxEntries) op c (op.step hash c) := hbounded.tierStep op
  refine ⟨hbounded.length, hstep, fun victim hv hgone now e he hfresh k e' he' => ?_⟩
  have hle : e.1.nanos ≤ e'.1.nanos := (hstep.evicts_soonest victim hv hgone).least e he k e' he'
  have hnow : now.nanos < e.1.nanos := of_decide_eq_true hfresh
  exact decide_eq_true (Int.lt_of_lt_of_le hnow hle)

end ResponseCache
end Zaphyl
