import Zaphyl.CacheStore
/-!
# CacheRace — a lookup and a put of one key, interleaved

`lookup` holds the lock for its memory probe and again for its insertion, and reads the disk between the two; `put`
writes the disk, then holds the lock for its insertion.  A schedule interleaves these five steps.  Run alone, each
thread is its operation (`run_lookup_alone`, `run_put_alone`); interleaved, the put is lost exactly when its insertion
falls between the lookup's probe and the lookup's insertion of another disk copy (`LostUpdate`).
-/
namespace Zaphyl

inductive Thread
  | lookup
  | put
deriving DecidableEq

/-- Where a lookup stands: `missed` has released the lock, `found` has the disk copy in hand. -/
inductive LookupPc
  | start
  | missed
  | found (expiry : SystemTime) (response : CachedResponse)
  | returned (result : Lookup)
  | panicked

inductive PutPc
  | start
  | written
  | returned
deriving DecidableEq

/-- The arguments of the two calls, and what the run-time leaves open in each. -/
structure Calls where
  key : Str
  now : SystemTime
  expiry : SystemTime
  response : CachedResponse
  lookupEnv : Env
  putEnv : Env

structure Race where
  cache : ResponseCache
  lookupPc : LookupPc
  putPc : PutPc

namespace Race

variable (hash : Str → UInt64) (k : Calls)

def stepLookup (s : Race) : Race :=
  match s.lookupPc with
  | .start =>
    match s.cache.probe k.key k.now with
    | some result => { s with lookupPc := .returned result }
    | none => { s with lookupPc := .missed }
  | .missed =>
    match s.cache.readDisk hash k.key with
    | .ok (some (expiry, response)) => { s with lookupPc := .found expiry response }
    | .ok none => { s with lookupPc := .returned .miss }
    | .error _ => { s with lookupPc := .panicked }
  | .found expiry response =>
    { s with
      cache := s.cache.insertMemory k.lookupEnv k.key expiry response
      lookupPc := .returned (ResponseCache.judge expiry response k.now) }
  | .returned _ => s
  | .panicked => s

def stepPut (s : Race) : Race :=
  match s.putPc with
  | .start => { s with cache := s.cache.writeDisk hash k.putEnv k.key k.expiry k.response, putPc := .written }
  | .written => { s with cache := s.cache.insertMemory k.putEnv k.key k.expiry k.response, putPc := .returned }
  | .returned => s

def step (s : Race) : Thread → Race
  | .lookup => stepLookup hash k s
  | .put => stepPut hash k s

def run (s : Race) (schedule : List Thread) : Race := schedule.foldl (step hash k) s

def start (c : ResponseCache) : Race := ⟨c, .start, .start⟩

def Done (s : Race) : Prop := (∃ result, s.lookupPc = .returned result) ∧ s.putPc = .returned

/-! ## One thread alone -/

theorem run_put_alone (s : Race) (h : s.putPc = .start) :
    run hash k s [.put, .put] =
      { s with cache := s.cache.put hash k.putEnv k.key k.expiry k.response, putPc := .returned } := by
  simp only [run, List.foldl_cons, List.foldl_nil, step, stepPut, h, ResponseCache.put]

theorem run_lookup_alone (s : Race) (h : s.lookupPc = .start) :
    match s.cache.lookup hash k.lookupEnv k.key k.now with
    | .ok (result, c) => run hash k s [.lookup, .lookup, .lookup] = { s with cache := c, lookupPc := .returned result }
    | .error _ => run hash k s [.lookup, .lookup, .lookup] = { s with lookupPc := .panicked } := by
  simp only [run, List.foldl_cons, List.foldl_nil, step, stepLookup, h, ResponseCache.lookup]
  cases hp : s.cache.probe k.key k.now with
  | some result => rfl
  | none =>
    simp only
    cases hr : s.cache.readDisk hash k.key with
    | error e => rfl
    | ok found => cases found <;> rfl

/-! ## When the put is lost -/

def putsDone (s : Race) : Nat :=
  match s.putPc with
  | .start => 0
  | .written => 1
  | .returned => 2

end Race

def putsBefore : Nat → List Thread → Nat
  | _, [] => 0
  | n, .put :: schedule => putsBefore n schedule + 1
  | 0, .lookup :: _ => 0
  | n + 1, .lookup :: schedule => putsBefore n schedule

/-- The cache whose disk a lookup reads after `n` turns of the put. -/
def diskAfter (hash : Str → UInt64) (k : Calls) (c : ResponseCache) (n : Nat) : ResponseCache :=
  if n = 0 then c else c.writeDisk hash k.putEnv k.key k.expiry k.response

/-- **The put is lost**: memory misses the key and the lookup probes it before the put's insertion, the disk it then
reads holds another entry of the key, and it inserts that after the put's insertion. -/
def LostUpdate (hash : Str → UInt64) (k : Calls) (c : ResponseCache) (schedule : List Thread) : Prop :=
  c.entries.lookup k.key = none ∧ putsBefore 0 schedule < 2 ∧ 2 ≤ putsBefore 2 schedule ∧
    ∃ copy, copy ≠ (k.expiry, k.response) ∧
      (diskAfter hash k c (putsBefore 1 schedule)).readDisk hash k.key = .ok (some copy)

namespace Race

variable {hash : Str → UInt64} {k : Calls}

@[simp] theorem run_nil (s : Race) : run hash k s [] = s := rfl

@[simp] theorem run_cons (s : Race) (t : Thread) (schedule : List Thread) :
    run hash k s (t :: schedule) = run hash k (step hash k s t) schedule := rfl

theorem putPc_eq_returned_iff (s : Race) : s.putPc = .returned ↔ 2 ≤ s.putsDone := by
  unfold putsDone
  cases s.putPc <;> simp

/-- What memory and disk hold while the lookup has inserted nothing: the disk after the put's write, and memory as it
was until the put's insertion. -/
structure Ahead (hash : Str → UInt64) (k : Calls) (c : ResponseCache) (s : Race) : Prop where
  disk : s.cache.disk = (diskAfter hash k c s.putsDone).disk
  before : s.putsDone < 2 → s.cache.entries = c.entries
  after : 2 ≤ s.putsDone → s.cache.entries.lookup k.key = some (k.expiry, k.response)

theorem ahead_start (c : ResponseCache) : Ahead hash k c (start c) :=
  ⟨rfl, fun _ => rfl, fun h => by simp [putsDone, start] at h⟩

theorem Ahead.lookupPc {c : ResponseCache} {s : Race} (h : Ahead hash k c s) (pc : LookupPc) :
    Ahead hash k c { s with lookupPc := pc } := ⟨h.disk, h.before, h.after⟩

theorem Ahead.readDisk {c : ResponseCache} {s : Race} (h : Ahead hash k c s) :
    s.cache.readDisk hash k.key = (diskAfter hash k c s.putsDone).readDisk hash k.key := by
  unfold ResponseCache.readDisk
  rw [h.disk]

theorem stepPut_cases (hash : Str → UInt64) (k : Calls) (s : Race) :
    (stepPut hash k s).lookupPc = s.lookupPc ∧
      ((stepPut hash k s).putsDone = s.putsDone + 1 ∧ s.putsDone < 2 ∨ stepPut hash k s = s ∧ s.putsDone = 2) := by
  unfold stepPut putsDone
  cases s.putPc with
  | start => exact ⟨rfl, Or.inl ⟨rfl, by decide⟩⟩
  | written => exact ⟨rfl, Or.inl ⟨rfl, by decide⟩⟩
  | returned => exact ⟨rfl, Or.inr ⟨rfl, rfl⟩⟩

theorem Ahead.stepPut {c : ResponseCache} {s : Race} (h : Ahead hash k c s) : Ahead hash k c (stepPut hash k s) := by
  obtain ⟨cache, lpc, ppc⟩ := s
  cases ppc with
  | start =>
    have hdisk : cache.disk = c.disk := h.disk
    have hentries : cache.entries = c.entries := h.before (by simp [putsDone])
    refine ⟨?_, fun _ => hentries, fun h2 => by simp [putsDone, Race.stepPut] at h2⟩
    show (cache.writeDisk hash k.putEnv k.key k.expiry k.response).disk = _
    simp only [ResponseCache.writeDisk, hdisk]
    rfl
  | written =>
    have hdisk := h.disk
    exact ⟨hdisk, fun h2 => by simp [putsDone, Race.stepPut] at h2, fun _ => ResponseCache.lookup_insertMemory_self⟩
  | returned => exact h

/-! ## Backwards from the lookup's return -/

/-- With the lookup returned, only a put still to insert changes the key's entry. -/
theorem lookup_run_of_returned (s : Race) (schedule : List Thread) {result : Lookup}
    (hpc : s.lookupPc = .returned result) (hput : (run hash k s schedule).putPc = .returned) :
    (run hash k s schedule).cache.entries.lookup k.key =
      if s.putsDone < 2 then some (k.expiry, k.response) else s.cache.entries.lookup k.key := by
  induction schedule generalizing s with
  | nil =>
    have h2 : 2 ≤ s.putsDone := (putPc_eq_returned_iff s).1 hput
    rw [if_neg (by omega), run_nil]
  | cons t schedule ih =>
    cases t with
    | lookup =>
      have hstep : step hash k s .lookup = s := by simp only [step, stepLookup, hpc]
      rw [run_cons, hstep] at hput ⊢
      exact ih s hpc hput
    | put =>
      rw [run_cons] at hput ⊢
      have hcases := stepPut_cases hash k s
      have hrest := ih (step hash k s .put) (hcases.1.trans hpc) hput
      rw [hrest]
      obtain ⟨cache, lpc, ppc⟩ := s
      cases ppc with
      | start => rfl
      | written =>
        exact ResponseCache.lookup_insertMemory_self
      | returned => rfl

/-- With the lookup returned before it inserted anything, the put survives. -/
theorem Ahead.lookup_run {c : ResponseCache} {s : Race} (hs : Ahead hash k c s) (schedule : List Thread)
    {result : Lookup} (hput : (run hash k { s with lookupPc := .returned result } schedule).putPc = .returned) :
    (run hash k { s with lookupPc := .returned result } schedule).cache.entries.lookup k.key =
      some (k.expiry, k.response) := by
  rw [lookup_run_of_returned _ _ rfl hput]
  show (if s.putsDone < 2 then _ else _) = _
  split
  · rfl
  · exact hs.after (by omega)

/-- With the disk copy in hand, the put survives unless it has inserted by the time the lookup inserts. -/
theorem lookup_run_of_found (s : Race) (schedule : List Thread) {expiry : SystemTime} {response : CachedResponse}
    (hpc : s.lookupPc = .found expiry response) (hdone : Done (run hash k s schedule)) :
    (run hash k s schedule).cache.entries.lookup k.key = some (k.expiry, k.response) ↔
      ¬ ((expiry, response) ≠ (k.expiry, k.response) ∧ 2 ≤ s.putsDone + putsBefore 0 schedule) := by
  induction schedule generalizing s with
  | nil =>
    obtain ⟨⟨result, hr⟩, -⟩ := hdone
    rw [run_nil, hpc] at hr
    cases hr
  | cons t schedule ih =>
    rw [run_cons] at hdone ⊢
    cases t with
    | lookup =>
      have hstep : step hash k s .lookup =
          { s with
            cache := s.cache.insertMemory k.lookupEnv k.key expiry response
            lookupPc := .returned (ResponseCache.judge expiry response k.now) } := by
        simp only [step, stepLookup, hpc]
      rw [hstep] at hdone ⊢
      rw [lookup_run_of_returned _ _ rfl hdone.2]
      show (if s.putsDone < 2 then _ else _) = _ ↔ _
      rw [ResponseCache.lookup_insertMemory_self, putsBefore, Nat.add_zero]
      split
      · rename_i h2
        exact ⟨fun _ h => absurd h.2 (by omega), fun _ => rfl⟩
      · rename_i h2
        rw [Option.some.injEq]
        exact ⟨fun h hne => hne.1 h, fun h => Classical.byContradiction (fun hne => h ⟨hne, by omega⟩)⟩
    | put =>
      obtain ⟨hl, hcount⟩ := stepPut_cases hash k s
      rw [ih (step hash k s .put) (hl.trans hpc) hdone, putsBefore]
      show ¬ (_ ∧ 2 ≤ (stepPut hash k s).putsDone + _) ↔ _
      rcases hcount with ⟨hcount, -⟩ | ⟨hsame, hcount⟩
      · rw [hcount, Nat.add_assoc, Nat.add_comm 1]
      · rw [hsame, hcount]
        simp only [Nat.le_add_right]

theorem lookupPc_run_of_panicked (s : Race) (schedule : List Thread) (h : s.lookupPc = .panicked) :
    (run hash k s schedule).lookupPc = .panicked := by
  induction schedule generalizing s with
  | nil => exact h
  | cons t schedule ih =>
    rw [run_cons]
    refine ih _ ?_
    cases t with
    | lookup => simp only [step, stepLookup, h]
    | put => exact (stepPut_cases hash k s).1.trans h

/-- The lookup's read of the disk: what it finds there, the put must outlast. -/
theorem lookup_turn_of_missed {c : ResponseCache} {s : Race} (schedule : List Thread) (hs : Ahead hash k c s)
    (hpc : s.lookupPc = .missed) (hdone : Done (run hash k (step hash k s .lookup) schedule)) :
    (run hash k (step hash k s .lookup) schedule).cache.entries.lookup k.key = some (k.expiry, k.response) ↔
      ¬ (2 ≤ s.putsDone + putsBefore 0 schedule ∧ ∃ copy, copy ≠ (k.expiry, k.response) ∧
        s.cache.readDisk hash k.key = .ok (some copy)) := by
  cases hread : s.cache.readDisk hash k.key with
  | error e =>
    exfalso
    have hstep : step hash k s .lookup = { s with lookupPc := .panicked } := by
      simp only [step, stepLookup, hpc, hread]
    rw [hstep] at hdone
    obtain ⟨⟨result, hr⟩, -⟩ := hdone
    rw [lookupPc_run_of_panicked _ schedule rfl] at hr
    cases hr
  | ok found =>
    cases found with
    | none =>
      have hstep : step hash k s .lookup = { s with lookupPc := .returned .miss } := by
        simp only [step, stepLookup, hpc, hread]
      rw [hstep] at hdone ⊢
      refine iff_of_true (hs.lookup_run schedule hdone.2) ?_
      rintro ⟨-, copy, -, hcopy⟩
      cases hcopy
    | some copy =>
      have hstep : step hash k s .lookup = { s with lookupPc := .found copy.1 copy.2 } := by
        simp only [step, stepLookup, hpc, hread]
      rw [hstep] at hdone ⊢
      rw [lookup_run_of_found _ _ rfl hdone]
      refine not_congr ⟨fun h => ⟨h.2, copy, h.1, rfl⟩, fun h => ?_⟩
      obtain ⟨h2, copy', hne, hcopy⟩ := h
      cases hcopy
      exact ⟨hne, h2⟩

/-- Past a missing probe, what counts is the disk at the read and the put's turns before the insertion. -/
theorem lookup_run_of_missed (c : ResponseCache) (s : Race) (schedule : List Thread) (hs : Ahead hash k c s)
    (hpc : s.lookupPc = .missed) (hdone : Done (run hash k s schedule)) :
    (run hash k s schedule).cache.entries.lookup k.key = some (k.expiry, k.response) ↔
      ¬ (2 ≤ s.putsDone + putsBefore 1 schedule ∧ ∃ copy, copy ≠ (k.expiry, k.response) ∧
        (diskAfter hash k c (s.putsDone + putsBefore 0 schedule)).readDisk hash k.key = .ok (some copy)) := by
  induction schedule generalizing s with
  | nil =>
    obtain ⟨⟨result, hr⟩, -⟩ := hdone
    rw [run_nil, hpc] at hr
    cases hr
  | cons t schedule ih =>
    rw [run_cons] at hdone ⊢
    cases t with
    | lookup =>
      simp only [putsBefore, Nat.add_zero]
      rw [← hs.readDisk]
      exact lookup_turn_of_missed schedule hs hpc hdone
    | put =>
      obtain ⟨hl, hcount⟩ := stepPut_cases hash k s
      rw [ih (step hash k s .put) hs.stepPut (hl.trans hpc) hdone, putsBefore, putsBefore]
      show ¬ (2 ≤ (stepPut hash k s).putsDone + _ ∧ ∃ copy, _ ∧
        (diskAfter hash k c ((stepPut hash k s).putsDone + _)).readDisk hash k.key = _) ↔ _
      rcases hcount with ⟨hcount, -⟩ | ⟨hsame, hcount⟩
      · rw [hcount, Nat.add_assoc, Nat.add_assoc, Nat.add_comm 1, Nat.add_comm 1]
      · rw [hsame, hcount]
        simp only [Nat.le_add_right, diskAfter, Nat.add_eq_zero_iff, false_and, OfNat.ofNat_ne_zero, if_false]

/-- The lookup's probe of the memory: a put that has inserted by then is found. -/
theorem lookup_turn_of_start {c : ResponseCache} {s : Race} (schedule : List Thread) (hs : Ahead hash k c s)
    (hpc : s.lookupPc = .start) (hdone : Done (run hash k (step hash k s .lookup) schedule)) :
    (run hash k (step hash k s .lookup) schedule).cache.entries.lookup k.key = some (k.expiry, k.response) ↔
      ¬ (c.entries.lookup k.key = none ∧ s.putsDone < 2 ∧ 2 ≤ s.putsDone + putsBefore 1 schedule ∧
        ∃ copy, copy ≠ (k.expiry, k.response) ∧
          (diskAfter hash k c (s.putsDone + putsBefore 0 schedule)).readDisk hash k.key = .ok (some copy)) := by
  cases hprobe : s.cache.probe k.key k.now with
  | some result =>
    have hmem : s.cache.entries.lookup k.key ≠ none := by
      intro h
      simp [ResponseCache.probe, h] at hprobe
    have hstep : step hash k s .lookup = { s with lookupPc := .returned result } := by
      simp only [step, stepLookup, hpc, hprobe]
    rw [hstep] at hdone ⊢
    refine iff_of_true (hs.lookup_run schedule hdone.2) (fun h => hmem ?_)
    rw [hs.before h.2.1]
    exact h.1
  | none =>
    have hmem : s.cache.entries.lookup k.key = none := by
      simpa [ResponseCache.probe] using hprobe
    have hlt : s.putsDone < 2 := by
      by_contra h2
      rw [hs.after (by omega)] at hmem
      cases hmem
    have hstep : step hash k s .lookup = { s with lookupPc := .missed } := by
      simp only [step, stepLookup, hpc, hprobe]
    rw [hstep] at hdone ⊢
    rw [lookup_run_of_missed c _ _ (hs.lookupPc _) rfl hdone]
    rw [hs.before hlt] at hmem
    exact not_congr ⟨fun h => ⟨hmem, hlt, h⟩, fun h => h.2.2⟩

theorem lookup_run_of_start (c : ResponseCache) (s : Race) (schedule : List Thread) (hs : Ahead hash k c s)
    (hpc : s.lookupPc = .start) (hdone : Done (run hash k s schedule)) :
    (run hash k s schedule).cache.entries.lookup k.key = some (k.expiry, k.response) ↔
      ¬ (c.entries.lookup k.key = none ∧ s.putsDone + putsBefore 0 schedule < 2 ∧
        2 ≤ s.putsDone + putsBefore 2 schedule ∧ ∃ copy, copy ≠ (k.expiry, k.response) ∧
        (diskAfter hash k c (s.putsDone + putsBefore 1 schedule)).readDisk hash k.key = .ok (some copy)) := by
  induction schedule generalizing s with
  | nil =>
    obtain ⟨⟨result, hr⟩, -⟩ := hdone
    rw [run_nil, hpc] at hr
    cases hr
  | cons t schedule ih =>
    rw [run_cons] at hdone ⊢
    cases t with
    | lookup =>
      simp only [putsBefore, Nat.add_zero]
      exact lookup_turn_of_start schedule hs hpc hdone
    | put =>
      obtain ⟨hl, hcount⟩ := stepPut_cases hash k s
      rw [ih (step hash k s .put) hs.stepPut (hl.trans hpc) hdone, putsBefore, putsBefore, putsBefore]
      show ¬ (_ ∧ (stepPut hash k s).putsDone + _ < 2 ∧ 2 ≤ (stepPut hash k s).putsDone + _ ∧ ∃ copy, _ ∧
        (diskAfter hash k c ((stepPut hash k s).putsDone + _)).readDisk hash k.key = _) ↔ _
      rcases hcount with ⟨hcount, -⟩ | ⟨hsame, hcount⟩
      · simp only [hcount, Nat.add_assoc, Nat.add_comm 1]
      · rw [hsame, hcount]
        have hno : ∀ n, ¬ (2 + n < 2) := fun n => by omega
        simp only [hno, false_and, and_false]

end Race

/-- **A put survives a concurrent lookup unless it is lost between the lookup's probe and insertion.** -/
theorem put_survives_iff (hash : Str → UInt64) (k : Calls) (c : ResponseCache) (schedule : List Thread)
    (hdone : (Race.run hash k (Race.start c) schedule).Done) :
    (Race.run hash k (Race.start c) schedule).cache.entries.lookup k.key = some (k.expiry, k.response) ↔
      ¬ LostUpdate hash k c schedule := by
  rw [Race.lookup_run_of_start c _ schedule (Race.ahead_start c) rfl hdone]
  show ¬ (_ ∧ 0 + _ < 2 ∧ 2 ≤ 0 + _ ∧ ∃ copy, _ ∧ (diskAfter hash k c (0 + _)).readDisk hash k.key = _) ↔ _
  simp only [Nat.zero_add]
  rfl

/-! ## A lost put -/

/-- The directory an earlier instance left, with an entry `old` of the key `k`. -/
def staleDir : Dir :=
  ((DiskStore.new ∅ 4).put (fun _ => 0) Env.kept ['k'] ⟨1000000000, by decide, by decide⟩ ⟨200, [], [1]⟩).dir

def racingCalls : Calls :=
  ⟨['k'], ⟨2000000000, by decide, by decide⟩, ⟨9000000000, by decide, by decide⟩, ⟨200, [], [2]⟩, Env.kept, Env.kept⟩

/-- The lookup misses memory and reads the disk, the put runs whole, the lookup inserts what it read. -/
def losingSchedule : List Thread := [.lookup, .lookup, .put, .put, .lookup]

theorem racingCalls_survive_serially :
    (Race.run (fun _ => 0) racingCalls (Race.start (ResponseCache.withDisk 4 staleDir))
      [.lookup, .lookup, .lookup, .put, .put]).cache.entries.lookup racingCalls.key =
        some (racingCalls.expiry, racingCalls.response) ↔
      ¬ LostUpdate (fun _ => 0) racingCalls (ResponseCache.withDisk 4 staleDir)
        [.lookup, .lookup, .lookup, .put, .put] :=
  put_survives_iff (fun _ => 0) racingCalls (ResponseCache.withDisk 4 staleDir) [.lookup, .lookup, .lookup, .put, .put]
    ⟨⟨_, rfl⟩, rfl⟩

theorem losingSchedule_loses_put :
    (Race.run (fun _ => 0) racingCalls (Race.start (ResponseCache.withDisk 4 staleDir)) losingSchedule).Done ∧
    (Race.run (fun _ => 0) racingCalls (Race.start (ResponseCache.withDisk 4 staleDir))
      losingSchedule).cache.entries.lookup racingCalls.key =
        some (⟨1000000000, by decide, by decide⟩, ⟨200, [], [1]⟩) ∧
    (Race.run (fun _ => 0) racingCalls (Race.start (ResponseCache.withDisk 4 staleDir))
      losingSchedule).cache.entries.lookup racingCalls.key ≠ some (racingCalls.expiry, racingCalls.response) :=
  ⟨⟨⟨_, rfl⟩, rfl⟩, by decide, by decide⟩

end Zaphyl
