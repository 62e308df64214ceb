import Zaphyl.CacheStore
import Zaphyl.Runs
/-!
# CacheView — the two-tier cache is a lossy view of the last put

The cache's purpose is a map from each key to the entry of its most recent put, which it may forget.  `View` is that
map, `Represents` says that both tiers hold nothing else, and every operation of the cache, a restart over the same
directory included, keeps it.  A lookup is then a miss or the last put's response (`lookup_views_last_put`).
-/
namespace Zaphyl

open ResponseCache (judge)

/-! ## The abstract cache -/

/-- Each key's most recent put: the expiry it gave, and the response. -/
abbrev View := Str → Option (SystemTime × CachedResponse)

def View.put (v : View) (key : Str) (expiry : SystemTime) (response : CachedResponse) : View :=
  Function.update v key (some (expiry, response))

/-- The copies of an expiry a tier may hold: itself, or itself cut to whole seconds. -/
def CopyOf (expiry copy : SystemTime) : Prop := copy = expiry ∨ copy = expiry.truncSecs

/-- **What a lookup may answer** of a key whose last put is `last`. -/
def LossyView (last : Option (SystemTime × CachedResponse)) (now : SystemTime) (result : Lookup) : Prop :=
  result = .miss ∨ ∃ expiry response copy, last = some (expiry, response) ∧ CopyOf expiry copy ∧
    result = judge copy response now ∧ ((∃ r, result = .fresh r) → expiry.after now = true)

/-! ## Operations -/

/-- An operation on a cache; a restart is a new instance over the same directory. -/
inductive CacheOp
  | put (env : Env) (key : Str) (expiry : SystemTime) (response : CachedResponse)
  | lookup (env : Env) (key : Str) (now : SystemTime)
  | restart (maxEntries : Nat)

namespace CacheOp

def step (hash : Str → UInt64) (c : ResponseCache) : CacheOp → Except Panic ResponseCache
  | put env key expiry response => .ok (c.put hash env key expiry response)
  | lookup env key now => (c.lookup hash env key now).map Prod.snd
  | restart maxEntries =>
    match c.disk with
    | some disk => .ok (ResponseCache.withDisk maxEntries disk.dir)
    | none => .ok (ResponseCache.new maxEntries)

/-- A put expires at or after the epoch and fits the file format. -/
def Admissible : CacheOp → Prop
  | put _ key expiry response => 0 ≤ expiry.nanos ∧ Codec.Fits key response
  | lookup _ _ _ => True
  | restart _ => True

def view (v : View) : CacheOp → View
  | put _ key expiry response => v.put key expiry response
  | lookup _ _ _ => v
  | restart _ => v

end CacheOp

def lastPut (ops : List CacheOp) : View := ops.foldl CacheOp.view (fun _ => none)

/-! ## What the tiers hold -/

/-- Memory holds a key's last put at a copy of its expiry. -/
def RemembersLast (v : View) (key : Str) (copy : SystemTime) (response : CachedResponse) : Prop :=
  ∃ expiry, v key = some (expiry, response) ∧ CopyOf expiry copy ∧ 0 ≤ expiry.nanos

/-- A file holds the last put of a key it is the path of. -/
def HoldsLast (hash : Str → UInt64) (v : View) (name : FileName) (file : File) : Prop :=
  ∃ key expiry response, name = DiskStore.path hash key ∧ v key = some (expiry, response) ∧ 0 ≤ expiry.nanos ∧
    Codec.Fits key response ∧ file.bytes = Codec.encode key expiry response

/-- **A cache represents a view** when its tiers hold last puts only. -/
abbrev Represents (hash : Str → UInt64) (c : ResponseCache) (v : View) : Prop :=
  c.Holds (RemembersLast v) (HoldsLast hash v)

variable {hash : Str → UInt64} {c : ResponseCache} {v : View}

theorem CopyOf.fresh_after {expiry copy now : SystemTime} (h : CopyOf expiry copy) (hpos : 0 ≤ expiry.nanos)
    (hnow : copy.after now = true) : expiry.after now = true := by
  rcases h with rfl | rfl
  · exact hnow
  · have := SystemTime.truncSecs_le hpos
    simp only [SystemTime.after, decide_eq_true_eq] at hnow ⊢
    omega

theorem lossyView_judge {key : Str} {copy : SystemTime} {response : CachedResponse}
    (h : RemembersLast v key copy response) (now : SystemTime) : LossyView (v key) now (judge copy response now) := by
  obtain ⟨expiry, hv, hc, hpos⟩ := h
  refine Or.inr ⟨expiry, response, copy, hv, hc, rfl, ?_⟩
  rintro ⟨r, hr⟩
  rcases ResponseCache.judge_eq copy response now with ⟨-, hnow⟩ | hstale
  · exact hc.fresh_after hpos hnow
  · rw [hstale] at hr
    cases hr

/-- **A disk read gives nothing or the last put**, its expiry cut to whole seconds; it never panics. -/
theorem readDisk_represents (h : Represents hash c v) (key : Str) :
    ∃ found, c.readDisk hash key = .ok found ∧
      ∀ copy response, found = some (copy, response) → RemembersLast v key copy response := by
  have hwritten : ∀ {name file}, HoldsLast hash v name file → ∃ stored expiry r,
      (v stored = some (expiry, r) ∧ 0 ≤ expiry.nanos) ∧ Codec.Fits stored r ∧
        file.bytes = Codec.encode stored expiry r := by
    rintro name file ⟨stored, expiry, r, -, hv, hpos, hfits, hbytes⟩
    exact ⟨stored, expiry, r, ⟨hv, hpos⟩, hfits, hbytes⟩
  obtain ⟨found, hread, hfound⟩ := ResponseCache.Holds.readDisk_spec
    (Q := fun stored expiry r => v stored = some (expiry, r) ∧ 0 ≤ expiry.nanos) h hwritten hash key
  refine ⟨found, hread, fun copy response hsome => ?_⟩
  obtain ⟨expiry, rfl, hv, hpos⟩ := hfound copy response hsome
  exact ⟨expiry, hv, Or.inr rfl, hpos⟩

/-! ## The operations keep the view -/

theorem View.put_self (v : View) (key : Str) (expiry : SystemTime) (response : CachedResponse) :
    v.put key expiry response key = some (expiry, response) := Function.update_self _ _ _

theorem View.put_ne (v : View) {key k : Str} (expiry : SystemTime) (response : CachedResponse) (h : k ≠ key) :
    v.put key expiry response k = v k := Function.update_of_ne h _ _

theorem put_represents (h : Represents hash c v) (env : Env) {key : Str} {expiry : SystemTime}
    {response : CachedResponse} (hpos : 0 ≤ expiry.nanos) (hfits : Codec.Fits key response) :
    Represents hash (c.put hash env key expiry response) (v.put key expiry response) := by
  refine h.put ?_ ?_ ⟨expiry, v.put_self _ _ _, Or.inl rfl, hpos⟩
    (fun _ => ⟨key, expiry, response, rfl, v.put_self _ _ _, hpos, hfits, rfl⟩)
  · rintro k copy r hk ⟨e, hv, hrest⟩
    exact ⟨e, by rw [v.put_ne _ _ hk]; exact hv, hrest⟩
  · -- any other file is of another key
    rintro name file hn ⟨k, e, r, rfl, hv, hrest⟩
    have hk : k ≠ key := fun hk => hn (by rw [hk])
    exact ⟨k, e, r, rfl, by rw [v.put_ne _ _ hk]; exact hv, hrest⟩

/-- **A lookup answers a lossy view of the last put and keeps the view.** -/
theorem lookup_represents (h : Represents hash c v) (env : Env) (key : Str) (now : SystemTime) :
    ∃ result c', c.lookup hash env key now = .ok (result, c') ∧ LossyView (v key) now result ∧
      Represents hash c' v := by
  obtain ⟨found, hread, hfound⟩ := readDisk_represents h key
  rcases ResponseCache.lookup_cases hash env c key now with ⟨copy, response, hm, hl⟩ | ⟨copy, response, hr, hl⟩ |
    ⟨-, hl⟩ | ⟨panic, hr, -⟩
  · exact ⟨_, c, hl, lossyView_judge (h.memory hm) now, h⟩
  · have hlast : RemembersLast v key copy response := by
      rw [hr, Except.ok.injEq] at hread
      exact hfound copy response hread.symm
    exact ⟨_, _, hl, lossyView_judge hlast now, h.insertMemory hlast⟩
  · exact ⟨.miss, c, hl, Or.inl rfl, h⟩
  · rw [hr] at hread
    cases hread

theorem restart_represents (h : Represents hash c v) (maxEntries : Nat) :
    ∃ c', (CacheOp.restart maxEntries).step hash c = .ok c' ∧ Represents hash c' v := by
  simp only [CacheOp.step]
  cases hd : c.disk with
  | none => exact ⟨_, rfl, ResponseCache.holds_new maxEntries⟩
  | some disk => exact ⟨_, rfl, ResponseCache.holds_withDisk maxEntries (h.files hd)⟩

/-- **Every admissible operation succeeds and keeps the view.** -/
theorem step_represents (op : CacheOp) (h : Represents hash c v) (hop : op.Admissible) :
    ∃ c', op.step hash c = .ok c' ∧ Represents hash c' (op.view v) := by
  cases op with
  | put env key expiry response => exact ⟨_, rfl, put_represents h env hop.1 hop.2⟩
  | lookup env key now =>
    obtain ⟨result, c', hl, -, hc'⟩ := lookup_represents h env key now
    exact ⟨c', by simp only [CacheOp.step, hl]; rfl, hc'⟩
  | restart maxEntries => exact restart_represents h maxEntries

/-! ## Whole runs -/

/-- **The two-tier cache is a lossy view of the last put.**  After any admissible operations on a cache that started
empty, in memory only or over an empty directory, a lookup is a miss or the response of the last put under its key,
fresh or stale by a copy of the expiry that put gave. -/
theorem lookup_views_last_put (hash : Str → UInt64) (c₀ : ResponseCache)
    (h₀ : ∃ maxEntries, c₀ = ResponseCache.new maxEntries ∨ c₀ = ResponseCache.withDisk maxEntries ∅)
    (ops : List CacheOp) (hops : ∀ op ∈ ops, op.Admissible) :
    ∃ c, ops.foldlM (CacheOp.step hash) c₀ = .ok c ∧
      ∀ env key now, ∃ result c', c.lookup hash env key now = .ok (result, c') ∧
        LossyView (lastPut ops key) now result := by
  have hstart : Represents hash c₀ (fun _ => none) := by
    obtain ⟨maxEntries, rfl | rfl⟩ := h₀
    · exact ResponseCache.holds_new maxEntries
    · exact ResponseCache.holds_withDisk_empty maxEntries
  obtain ⟨c, hrun, hc⟩ := Runs.foldlM_simulates (fun c v op h hop => step_represents op h hop) ops c₀ _ hstart hops
  refine ⟨c, hrun, fun env key now => ?_⟩
  obtain ⟨result, c', hl, hview, -⟩ := lookup_represents hc env key now
  exact ⟨result, c', hl, hview⟩

/-- Two keys of one hash, a restart and a lookup between them. -/
def collidingOps : List CacheOp :=
  [.put Env.kept ['a'] ⟨1500000000, by decide, by decide⟩ ⟨200, [("etag".toList, "v1".toList)], [1, 2]⟩,
    .put Env.kept ['b'] ⟨2500000000, by decide, by decide⟩ ⟨200, [], []⟩, .restart 8,
    .lookup Env.kept ['a'] SystemTime.epoch]

theorem collidingOps_admissible : ∀ op ∈ collidingOps, op.Admissible := by
  intro op hop
  simp only [collidingOps, List.mem_cons, List.not_mem_nil, or_false] at hop
  rcases hop with rfl | rfl | rfl | rfl
  · exact ⟨by decide, ⟨by decide, by decide, by decide, by decide⟩⟩
  · exact ⟨by decide, ⟨by decide, by decide, by decide, by decide⟩⟩
  · trivial
  · trivial

theorem collidingOps_views_last_put :
    ∃ c, collidingOps.foldlM (CacheOp.step (fun _ => 0)) (ResponseCache.withDisk 1 ∅) = .ok c ∧
      ∀ env key now, ∃ result c', c.lookup (fun _ => 0) env key now = .ok (result, c') ∧
        LossyView (lastPut collidingOps key) now result :=
  lookup_views_last_put (fun _ => 0) (ResponseCache.withDisk 1 ∅) ⟨1, Or.inr rfl⟩ collidingOps collidingOps_admissible

end Zaphyl
