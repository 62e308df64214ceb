import Zaphyl.CacheView
import Zaphyl.DiskRace
import Zaphyl.Threads
/-!
# CacheThreads — the response cache under any number of threads

Every thread shares the memory map, which it holds locked for a probe or an insertion, and the cache's files, one for
each hash, whose operations may fail, mix with those of other threads chunk by chunk and be evicted at any time; a
restart drops the memory and whatever was under way.  Whatever the order, a lookup answers a miss or an entry that was
put under its key, fresh only while that put's expiry is still to come (`answers_were_put`).
-/
namespace Zaphyl

open ResponseCache (judge)

/-! ## The shared cache -/

/-- The memory tier, the files of each hash, and every entry that was put. -/
structure SharedCache where
  memory : ResponseCache
  paths : UInt64 → DiskPath
  puts : List DiskPut

namespace SharedCache

def start (maxEntries : Nat) : SharedCache := ⟨ResponseCache.new maxEntries, fun _ => DiskPath.start, []⟩

def onPath (s : SharedCache) (hash : UInt64) (path : DiskPath) : SharedCache :=
  { s with paths := Function.update s.paths hash path }

def disk (s : SharedCache) (hash : UInt64) (e : DiskEvent) : Option SharedCache :=
  ((s.paths hash).step e).map (s.onPath hash)

/-- The temporary file that the path's writer `i` has open is open for `p`. -/
def writes (s : SharedCache) (hash : UInt64) (i : Nat) (p : DiskPut) : Bool :=
  ((s.paths hash).writers[i]?).any (fun w => decide (w.put = p))

/-- The path's read `i` has this file open. -/
def reads (s : SharedCache) (hash : UInt64) (i inode : Nat) : Bool :=
  ((s.paths hash).reads[i]?).any (fun r => decide (r.inode = inode))

/-- A read that failed gives its file up. -/
def abandon (s : SharedCache) (hash : UInt64) (i : Nat) : SharedCache :=
  s.onPath hash { s.paths hash with reads := (s.paths hash).reads.eraseIdx i }

/-- The files stay, nobody has one open. -/
def restarted (s : SharedCache) (maxEntries : Nat) : SharedCache :=
  ⟨ResponseCache.new maxEntries, fun hash => { s.paths hash with writers := [], reads := [] }, s.puts⟩

def insertMemory (s : SharedCache) (env : Env) (key : Str) (expiry : SystemTime) (response : CachedResponse) :
    SharedCache :=
  { s with memory := s.memory.insertMemory env key expiry response }

end SharedCache

/-! ## The threads -/

inductive CacheCall
  | put (p : DiskPut)
  | lookup (key : Str) (now : SystemTime)

/-- Where a `put` or a `lookup` stands. -/
inductive CacheThread
  | evicting (p : DiskPut)
  | creating (p : DiskPut)
  | writing (p : DiskPut)
  | storing (p : DiskPut)
  | stored
  | probing (key : Str) (now : SystemTime)
  | missed (key : Str) (now : SystemTime)
  | reading (key : Str) (now : SystemTime) (inode : Nat)
  | found (key : Str) (now expiry : SystemTime) (response : CachedResponse)
  | answered (key : Str) (now : SystemTime) (result : Lookup)
  | panicked
deriving DecidableEq

/-- A thread's next step, with the place of its writer or read among those of its path. -/
inductive CacheMove
  | evict (victim : Option UInt64)
  | create
  | write (i n : Nat)
  | rename (i : Nat)
  | store (env : Env)
  | probe
  | openFile
  | read (i n : Nat)
  | endOfFile (i : Nat)
  | insert (env : Env)
  /-- A file operation fails. -/
  | fail (i : Nat)

namespace CacheThread

/-- What a lookup makes of the bytes of its file. -/
def afterRead (key : Str) (now : SystemTime) (bytes : Bytes) : CacheThread :=
  match Codec.decode bytes with
  | .error _ => .panicked
  | .ok none => .answered key now .miss
  | .ok (some (storedKey, expiry, response)) =>
    if storedKey = key then .found key now expiry response else .answered key now .miss

/-- A put goes on to the memory whatever becomes of its file; a lookup whose file cannot be read misses. -/
def step (hash : Str → UInt64) (s : SharedCache) : CacheThread → CacheMove → Option (SharedCache × CacheThread)
  | .evicting p, .evict none => some (s, .creating p)
  | .evicting p, .evict (some victim) => (s.disk victim .evict).map (·, .creating p)
  | .creating p, .create => (s.disk (hash p.key) (.create p)).map (·, .writing p)
  | .creating p, .fail _ => some (s, .storing p)
  | .writing p, .write i n =>
    if s.writes (hash p.key) i p then (s.disk (hash p.key) (.write i n)).map (·, .writing p) else none
  | .writing p, .rename i =>
    if s.writes (hash p.key) i p then (s.disk (hash p.key) (.rename i)).map (·, .storing p) else none
  | .writing p, .fail i =>
    if s.writes (hash p.key) i p then (s.disk (hash p.key) (.fail i)).map (·, .storing p) else none
  | .storing p, .store env => some (s.insertMemory env p.key p.expiry p.response, .stored)
  | .probing key now, .probe =>
    match s.memory.probe key now with
    | some result => some (s, .answered key now result)
    | none => some (s, .missed key now)
  | .missed key now, .openFile => do
    let inode ← (s.paths (hash key)).file
    (s.disk (hash key) .openFile).map (·, .reading key now inode)
  | .missed key now, .fail _ => some (s, .answered key now .miss)
  | .reading key now inode, .read i n =>
    if s.reads (hash key) i inode then (s.disk (hash key) (.read i n)).map (·, .reading key now inode) else none
  | .reading key now inode, .endOfFile i => do
    let r ← (s.paths (hash key)).reads[i]?
    let s' ← s.disk (hash key) (.endOfFile i)
    if r.inode = inode then some (s', afterRead key now r.bytes) else none
  | .reading key now inode, .fail i =>
    if s.reads (hash key) i inode then some (s.abandon (hash key) i, .answered key now .miss) else none
  | .found key now expiry response, .insert env =>
    some (s.insertMemory env key expiry response, .answered key now (judge expiry response now))
  | _, _ => none

end CacheThread

def cacheProgram (hash : Str → UInt64) : Threads.Program SharedCache CacheThread CacheCall CacheMove Nat where
  call s
    | .put p => ({ s with puts := s.puts ++ [p] }, .evicting p)
    | .lookup key now => (s, .probing key now)
  step := CacheThread.step hash
  restart s maxEntries := s.restarted maxEntries

/-- What is put expires at or after the epoch and fits the file format. -/
def CacheCall.Admitted (_ : SharedCache) : CacheCall → Prop
  | .put p => 0 ≤ p.expiry.nanos ∧ Codec.Fits p.key p.response
  | .lookup _ _ => True

/-- A put opens its temporary file while no other one of its hash is under way. -/
def CacheThread.Alone (hash : Str → UInt64) (s : SharedCache) : CacheThread → CacheMove → Prop
  | .creating p, .create => (s.paths (hash p.key)).writers = []
  | _, _ => True

/-! ## What every step keeps -/

namespace DiskPath

/-- A step adds at most the put that it opens the temporary file for. -/
theorem puts_of_step {s t : DiskPath} {e : DiskEvent} (h : s.step e = some t) :
    ∀ p ∈ t.puts, p ∈ s.puts ∨ e = .create p := by
  intro p hp
  cases e with
  | create q =>
    rw [← Option.some.inj h] at hp
    have hputs : (s.create q).puts = s.puts ++ [q] := by
      unfold create
      split <;> rfl
    rw [hputs] at hp
    rcases List.mem_append.1 hp with hp | hp
    · exact Or.inl hp
    · exact Or.inr (by rw [List.mem_singleton.1 hp])
  | write i n =>
    obtain ⟨w, -, h⟩ := Option.bind_eq_some_iff.1 h
    split at h
    · rw [← Option.some.inj h] at hp
      exact Or.inl hp
    · cases h
  | rename i =>
    obtain ⟨w, -, h⟩ := Option.bind_eq_some_iff.1 h
    split at h
    · rw [← Option.some.inj h] at hp
      unfold renamed at hp
      split at hp
      · exact Or.inl hp
      · exact Or.inl hp
    · cases h
  | fail i =>
    rw [← Option.some.inj h] at hp
    exact Or.inl hp
  | evict =>
    rw [← Option.some.inj h] at hp
    exact Or.inl hp
  | openFile =>
    obtain ⟨inode, -, h⟩ := Option.bind_eq_some_iff.1 h
    rw [← Option.some.inj h] at hp
    exact Or.inl hp
  | read i n =>
    obtain ⟨r, -, h⟩ := Option.bind_eq_some_iff.1 h
    rw [← Option.some.inj h] at hp
    exact Or.inl hp
  | endOfFile i =>
    obtain ⟨r, -, h⟩ := Option.bind_eq_some_iff.1 h
    split at h
    · rw [← Option.some.inj h] at hp
      exact Or.inl hp
    · cases h

/-- Readers that leave change nothing. -/
theorem Sound.of_fewer {s : DiskPath} (h : s.Sound) {writers : List Writer} {reads : List FileRead}
    (hwriters : writers.Sublist s.writers) (hreads : ∀ r ∈ reads, r ∈ s.reads) :
    Sound { s with writers := writers, reads := reads } := by
  refine ⟨Nat.le_trans hwriters.length_le h.single, fun w hw => h.writer w (hwriters.subset hw), ?_, h.file,
    fun r hr => h.reads r (hreads r hr), h.observed⟩
  intro inode hinode
  obtain ⟨hlt, hfile, hother⟩ := h.tmp inode hinode
  exact ⟨hlt, hfile, fun r hr => hother r (hreads r hr)⟩

/-- **A read that comes to the end of its file has the encoding of an entry that was put.** -/
theorem Sound.whole_of_endOfFile {s t : DiskPath} (h : s.Sound) {i : Nat} {r : FileRead} (hr : s.reads[i]? = some r)
    (hstep : s.step (.endOfFile i) = some t) : ∃ p ∈ s.puts, r.bytes = p.encoding := by
  obtain ⟨r', hr', hstep⟩ := Option.bind_eq_some_iff.1 hstep
  rw [hr, Option.some.injEq] at hr'
  subst hr'
  split at hstep
  · rename_i hend
    exact (h.finishRead hr hend).observed r.bytes (List.mem_append_right _ List.mem_cons_self)
  · cases hstep

end DiskPath

/-- The response was put under the key, with an expiry of which this is a copy. -/
def WasPut (puts : List DiskPut) (key : Str) (copy : SystemTime) (response : CachedResponse) : Prop :=
  ∃ p ∈ puts, p.key = key ∧ p.response = response ∧ CopyOf p.expiry copy

/-- **What a lookup may answer**: a miss, or a put of its key, fresh while its expiry is to come, stale once it is past
to the second. -/
def Justified (puts : List DiskPut) (key : Str) (now : SystemTime) (result : Lookup) : Prop :=
  result = .miss ∨ ∃ p ∈ puts, p.key = key ∧
    (result = .fresh p.response ∧ p.expiry.after now = true ∨
      result = .stale p.response ∧ p.expiry.truncSecs.after now = false)

/-- **The tiers hold nothing but what was put.** -/
structure SharedCache.Kept (s : SharedCache) : Prop where
  paths : ∀ hash, (s.paths hash).Sound
  onDisk : ∀ hash, ∀ p ∈ (s.paths hash).puts, p ∈ s.puts
  admitted : ∀ p ∈ s.puts, 0 ≤ p.expiry.nanos ∧ Codec.Fits p.key p.response
  memory : s.memory.Holds (WasPut s.puts) (fun _ _ => True)

/-- **A thread has in hand what was put.** -/
def CacheThread.Accounted (puts : List DiskPut) : CacheThread → Prop
  | .evicting p | .creating p | .writing p | .storing p => p ∈ puts
  | .found key _ expiry response => WasPut puts key expiry response
  | .answered key now result => Justified puts key now result
  | .panicked => False
  | _ => True

theorem WasPut.mono {puts puts' : List DiskPut} {key : Str} {copy : SystemTime} {response : CachedResponse}
    (h : WasPut puts key copy response) (hsub : ∀ p ∈ puts, p ∈ puts') : WasPut puts' key copy response := by
  obtain ⟨p, hp, hrest⟩ := h
  exact ⟨p, hsub p hp, hrest⟩

/-- An entry that was put is judged as that put allows. -/
theorem WasPut.justified {puts : List DiskPut} {key : Str} {copy : SystemTime} {response : CachedResponse}
    (h : WasPut puts key copy response) (hadmitted : ∀ p ∈ puts, 0 ≤ p.expiry.nanos ∧ Codec.Fits p.key p.response)
    (now : SystemTime) : Justified puts key now (judge copy response now) := by
  obtain ⟨p, hp, hkey, rfl, hcopy⟩ := h
  have hpos := (hadmitted p hp).1
  refine Or.inr ⟨p, hp, hkey, ?_⟩
  unfold judge
  split
  · rename_i hafter
    exact Or.inl ⟨rfl, hcopy.fresh_after hpos hafter⟩
  · rename_i hpast
    refine Or.inr ⟨rfl, ?_⟩
    rcases hcopy with rfl | rfl
    · have hle := SystemTime.truncSecs_le hpos
      simp only [SystemTime.after, decide_eq_true_eq] at hpast
      simp only [SystemTime.after, decide_eq_false_iff_not]
      omega
    · exact Bool.eq_false_iff.2 hpast

theorem CacheThread.Accounted.mono {puts puts' : List DiskPut} {t : CacheThread} (h : t.Accounted puts)
    (hsub : ∀ p ∈ puts, p ∈ puts') : t.Accounted puts' := by
  cases t with
  | evicting p | creating p | writing p | storing p => exact hsub p h
  | found key now expiry response => exact WasPut.mono h hsub
  | answered key now result =>
    rcases h with hmiss | ⟨p, hp, hrest⟩
    · exact Or.inl hmiss
    · exact Or.inr ⟨p, hsub p hp, hrest⟩
  | panicked => exact h
  | _ => trivial

namespace SharedCache

variable {s s' : SharedCache}

theorem kept_start (maxEntries : Nat) : (start maxEntries).Kept :=
  ⟨fun _ => DiskPath.sound_start, fun _ _ hp => (by cases hp), fun _ hp => (by cases hp),
    ResponseCache.holds_new maxEntries⟩

/-- A path that stays sound, and holds nothing new. -/
theorem Kept.onPath (h : s.Kept) {hash : UInt64} {path : DiskPath} (hsound : path.Sound)
    (hputs : ∀ p ∈ path.puts, p ∈ s.puts) : (s.onPath hash path).Kept := by
  refine ⟨fun k => ?_, fun k => ?_, h.admitted, h.memory⟩
  · show (Function.update s.paths hash path k).Sound
    by_cases hk : k = hash
    · rw [hk, Function.update_self]
      exact hsound
    · rw [Function.update_of_ne hk]
      exact h.paths k
  · show ∀ p ∈ (Function.update s.paths hash path k).puts, p ∈ s.puts
    by_cases hk : k = hash
    · rw [hk, Function.update_self]
      exact hputs
    · rw [Function.update_of_ne hk]
      exact h.onDisk k

/-- **A file operation keeps the tiers**, if a put that it begins was called and is alone. -/
theorem Kept.disk (h : s.Kept) {hash : UInt64} {e : DiskEvent} (hstep : s.disk hash e = some s')
    (hput : ∀ p, e = .create p → p ∈ s.puts ∧ (s.paths hash).writers = []) : s'.Kept := by
  obtain ⟨path, hpath, rfl⟩ := Option.map_eq_some_iff.1 hstep
  have halone : (s.paths hash).Alone e := by
    cases e with
    | create p => exact (hput p rfl).2
    | _ => trivial
  refine h.onPath ((h.paths hash).step halone hpath) (fun p hp => ?_)
  rcases DiskPath.puts_of_step hpath p hp with hp | hp
  · exact h.onDisk hash p hp
  · exact (hput p hp).1

theorem puts_disk {hash : UInt64} {e : DiskEvent} (hstep : s.disk hash e = some s') : s'.puts = s.puts := by
  obtain ⟨path, -, rfl⟩ := Option.map_eq_some_iff.1 hstep
  rfl

theorem Kept.abandon (h : s.Kept) (hash : UInt64) (i : Nat) : (s.abandon hash i).Kept :=
  h.onPath ((h.paths hash).of_fewer (List.Sublist.refl _) (fun _ hr => List.mem_of_mem_eraseIdx hr)) (h.onDisk hash)

theorem Kept.restarted (h : s.Kept) (maxEntries : Nat) : (s.restarted maxEntries).Kept :=
  ⟨fun hash => (h.paths hash).of_fewer (List.nil_sublist _) (fun _ hr => (by cases hr)), h.onDisk, h.admitted,
    ResponseCache.holds_new maxEntries⟩

theorem Kept.insertMemory (h : s.Kept) (env : Env) {key : Str} {expiry : SystemTime} {response : CachedResponse}
    (hput : WasPut s.puts key expiry response) : (s.insertMemory env key expiry response).Kept :=
  ⟨h.paths, h.onDisk, h.admitted, h.memory.insertMemory hput⟩

theorem Kept.called (h : s.Kept) {p : DiskPut} (hp : 0 ≤ p.expiry.nanos ∧ Codec.Fits p.key p.response) :
    Kept { s with puts := s.puts ++ [p] } := by
  have hsub : ∀ q ∈ s.puts, q ∈ s.puts ++ [p] := fun q hq => List.mem_append_left _ hq
  refine ⟨h.paths, fun hash q hq => hsub q (h.onDisk hash q hq), fun q hq => ?_,
    h.memory.mono (fun hput => hput.mono hsub) (fun hfile => hfile)⟩
  rcases List.mem_append.1 hq with hq | hq
  · exact h.admitted q hq
  · rw [List.mem_singleton.1 hq]
    exact hp

end SharedCache

namespace CacheThread

variable {hash : Str → UInt64} {s s' : SharedCache} {t t' : CacheThread} {e : CacheMove}

/-- A thread's file operation, and where the thread stands after it. -/
theorem disk_kept (h : s.Kept) {k : UInt64} {d : DiskEvent} {next : CacheThread}
    (hstep : (s.disk k d).map (·, next) = some (s', t')) (hnext : next.Accounted s.puts)
    (hput : ∀ p, d = .create p → p ∈ s.puts ∧ (s.paths k).writers = []) :
    s'.Kept ∧ s'.puts = s.puts ∧ t'.Accounted s.puts := by
  obtain ⟨shared, hdisk, heq⟩ := Option.map_eq_some_iff.1 hstep
  rw [Prod.mk.injEq] at heq
  obtain ⟨rfl, rfl⟩ := heq
  exact ⟨h.disk hdisk hput, SharedCache.puts_disk hdisk, hnext⟩

/-- **What a lookup reads is its key's or nothing.** -/
theorem afterRead_accounted (h : s.Kept) (key : Str) (now : SystemTime) {bytes : Bytes}
    (hbytes : ∃ p ∈ s.puts, bytes = p.encoding) : (afterRead key now bytes).Accounted s.puts := by
  obtain ⟨p, hp, rfl⟩ := hbytes
  unfold afterRead
  rw [DiskPut.encoding, Codec.decode_encode (h.admitted p hp).2]
  show Accounted s.puts (if p.key = key then _ else _)
  split
  · rename_i hkey
    exact ⟨p, hp, hkey, rfl, Or.inr rfl⟩
  · exact Or.inl rfl

/-- **A thread's step keeps the tiers and has in hand what was put.** -/
theorem step_kept (h : s.Kept) (ht : t.Accounted s.puts) (halone : t.Alone hash s e)
    (hstep : t.step hash s e = some (s', t')) : s'.Kept ∧ s'.puts = s.puts ∧ t'.Accounted s.puts := by
  unfold CacheThread.step at hstep
  split at hstep
  · cases hstep
    exact ⟨h, rfl, ht⟩
  · exact disk_kept h hstep ht (fun _ hcreate => by cases hcreate)
  · refine disk_kept h hstep ht (fun p hcreate => ?_)
    cases hcreate
    exact ⟨ht, halone⟩
  · cases hstep
    exact ⟨h, rfl, ht⟩
  · split at hstep
    · exact disk_kept h hstep ht (fun _ hcreate => by cases hcreate)
    · cases hstep
  · split at hstep
    · exact disk_kept h hstep ht (fun _ hcreate => by cases hcreate)
    · cases hstep
  · split at hstep
    · exact disk_kept h hstep ht (fun _ hcreate => by cases hcreate)
    · cases hstep
  · cases hstep
    exact ⟨h.insertMemory _ ⟨_, ht, rfl, rfl, Or.inl rfl⟩, rfl, trivial⟩
  · rename_i key now
    split at hstep
    · rename_i result hprobe
      cases hstep
      obtain ⟨⟨copy, response⟩, hlookup, rfl⟩ := Option.map_eq_some_iff.1 hprobe
      exact ⟨h, rfl, (h.memory.memory hlookup).justified h.admitted now⟩
    · cases hstep
      exact ⟨h, rfl, trivial⟩
  · obtain ⟨inode, -, hstep⟩ := Option.bind_eq_some_iff.1 hstep
    exact disk_kept h hstep trivial (fun _ hcreate => by cases hcreate)
  · cases hstep
    exact ⟨h, rfl, Or.inl rfl⟩
  · split at hstep
    · exact disk_kept h hstep trivial (fun _ hcreate => by cases hcreate)
    · cases hstep
  · rename_i key now inode i
    obtain ⟨r, hr, hrest⟩ := Option.bind_eq_some_iff.1 hstep
    obtain ⟨shared, hdisk, heq⟩ := Option.bind_eq_some_iff.1 hrest
    split at heq
    · cases heq
      obtain ⟨path, hpath, -⟩ := Option.map_eq_some_iff.1 hdisk
      obtain ⟨p, hp, hbytes⟩ := (h.paths (hash key)).whole_of_endOfFile hr hpath
      exact ⟨h.disk hdisk (fun _ hcreate => by cases hcreate), SharedCache.puts_disk hdisk,
        afterRead_accounted h key now ⟨p, h.onDisk _ p hp, hbytes⟩⟩
    · cases heq
  · split at hstep
    · cases hstep
      exact ⟨h.abandon _ _, rfl, Or.inl rfl⟩
    · cases hstep
  · cases hstep
    exact ⟨h.insertMemory _ ht, rfl, ht.justified h.admitted _⟩
  · cases hstep

end CacheThread

/-- **The tiers and the threads in any order of steps.** -/
theorem cacheProgram_outline (hash : Str → UInt64) :
    Threads.Outline (cacheProgram hash) CacheCall.Admitted (CacheThread.Alone hash) SharedCache.Kept
      (fun s t => t.Accounted s.puts) where
  call := by
    intro s c h hc
    cases c with
    | put p => exact ⟨h.called hc, List.mem_append_right _ List.mem_cons_self⟩
    | lookup key now => exact ⟨h, trivial⟩
  call_others := by
    intro s c u h hc hu
    cases c with
    | put p => exact hu.mono (fun q hq => List.mem_append_left _ hq)
    | lookup key now => exact hu
  step := by
    intro s t e s' t' h ht halone hstep
    obtain ⟨hkept, hputs, ht'⟩ := CacheThread.step_kept h ht halone hstep
    exact ⟨hkept, by rw [hputs]; exact ht'⟩
  step_others := by
    intro s t e s' t' u h ht halone hstep hu
    rw [(CacheThread.step_kept h ht halone hstep).2.1]
    exact hu
  restart := fun h => h.restarted _

/-! ## Whole runs -/

/-- **Whatever the threads do in whatever order, a lookup answers a miss or an entry that was put under its key**: fresh
only before the expiry of that put, stale only once it is past to the second.  No thread panics. -/
theorem answers_were_put (hash : Str → UInt64) (maxEntries : Nat)
    {events : List (Threads.Event CacheCall CacheMove Nat)} {s : Threads.System SharedCache CacheThread}
    (h : Runs.Run (Runs.Run.Where (cacheProgram hash).Next (Threads.Meets CacheCall.Admitted (CacheThread.Alone hash)))
      ⟨SharedCache.start maxEntries, []⟩ events s) :
    CacheThread.panicked ∉ s.threads ∧ ∀ key now result, CacheThread.answered key now result ∈ s.threads →
      result = .miss ∨ ∃ p ∈ s.shared.puts, p.key = key ∧
        (result = .fresh p.response ∧ p.expiry.after now = true ∨
          result = .stale p.response ∧ p.expiry.truncSecs.after now = false) := by
  obtain ⟨-, hthreads⟩ := (cacheProgram_outline hash).of_run h
    ⟨SharedCache.kept_start maxEntries, fun u hu => by cases hu⟩
  exact ⟨fun hpanic => hthreads _ hpanic, fun key now result hanswered => hthreads _ hanswered⟩

/-- A put, a restart and a lookup of the same key, which reads the file. -/
def putRestartLookup : List (Threads.Event CacheCall CacheMove Nat) :=
  [.call (.put (DiskPath.smallPut DiskPath.oneSecond 1)), .thread 0 (.evict none), .thread 0 .create,
    .thread 0 (.write 0 10), .thread 0 (.write 0 100), .thread 0 (.rename 0), .thread 0 (.store Env.kept), .restart 4,
    .call (.lookup ['k'] SystemTime.epoch), .thread 0 .probe, .thread 0 .openFile, .thread 0 (.read 0 20),
    .thread 0 (.read 0 100), .thread 0 (.endOfFile 0), .thread 0 (.insert Env.kept)]

/-- A check of the conditions, where every key has the same hash. -/
def onePutAlone (s : Threads.System SharedCache CacheThread) : Threads.Event CacheCall CacheMove Nat → Bool
  | .call (.put p) => decide (p = DiskPath.smallPut DiskPath.oneSecond 1)
  | .thread _ .create => (s.shared.paths 0).writers.isEmpty
  | _ => true

theorem meets_of_onePutAlone (s : Threads.System SharedCache CacheThread) (e : Threads.Event CacheCall CacheMove Nat)
    (h : onePutAlone s e = true) : Threads.Meets CacheCall.Admitted (CacheThread.Alone (fun _ => 0)) s e := by
  cases e with
  | call c =>
    cases c with
    | put p =>
      rw [of_decide_eq_true h]
      exact ⟨by decide, ⟨by decide, by decide, by decide, by decide⟩⟩
    | lookup key now => trivial
  | thread i e =>
    intro t ht
    cases e with
    | create =>
      cases t with
      | creating p => exact List.isEmpty_iff.1 h
      | _ => trivial
    | _ => cases t <;> trivial
  | restart r => trivial

theorem restarted_answer_was_put : ∃ s : Threads.System SharedCache CacheThread,
    s.threads = [.answered ['k'] SystemTime.epoch (.fresh ⟨200, [], [1]⟩)] ∧
      ∃ p ∈ s.shared.puts, p.key = ['k'] ∧ p.expiry.after SystemTime.epoch = true := by
  have hrun : (putRestartLookup.foldlM
      (fun s e => if onePutAlone s e then (cacheProgram (fun _ => 0)).next s e else none)
      ⟨SharedCache.start 4, []⟩).map (·.threads) =
        some [.answered ['k'] SystemTime.epoch (.fresh ⟨200, [], [1]⟩)] := by decide
  obtain ⟨s, hs, hthreads⟩ := Option.map_eq_some_iff.1 hrun
  obtain ⟨-, hanswers⟩ := answers_were_put (fun _ => 0) 4 (Runs.run_where_of_foldlM meets_of_onePutAlone hs)
  refine ⟨s, hthreads, ?_⟩
  rcases hanswers ['k'] SystemTime.epoch (.fresh ⟨200, [], [1]⟩) (by rw [hthreads]; exact List.mem_cons_self) with
    hmiss | ⟨p, hp, hkey, ⟨-, hafter⟩ | ⟨hstale, -⟩⟩
  · cases hmiss
  · exact ⟨p, hp, hkey, hafter⟩
  · cases hstale

end Zaphyl
