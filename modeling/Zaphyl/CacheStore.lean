import Zaphyl.CacheCodec
import Zaphyl.Iteration
/-!
# CacheStore — the two tiers of the response cache

`ResponseCache` is an in-memory map that evicts the soonest-to-expire entry when full, optionally backed by a
directory with one file per entry, named by a hash of the key, that evicts the least recently written file.  What the
run-time leaves open (the iteration orders, the stamp the file system gives a written file) is a parameter of each
operation; the hash function is a parameter of all of them.  File operations succeed.
-/
namespace Zaphyl

open Iteration (Order)

structure FileName where
  stem : Str
  extension : Option Str
deriving DecidableEq

structure File where
  modified : SystemTime
  bytes : Bytes
deriving DecidableEq

abbrev Dir := AList (fun _ : FileName => File)

abbrev Entries := AList (fun _ : Str => SystemTime × CachedResponse)

/-- What the run-time leaves open in one operation. -/
structure Env where
  entriesOrder : Order (Sigma fun _ : Str => SystemTime × CachedResponse)
  dirOrder : Order (Sigma fun _ : FileName => File)
  stamp : SystemTime

def Env.kept : Env := ⟨Order.kept, Order.kept, SystemTime.epoch⟩

namespace Dir

def write (dir : Dir) (name : FileName) (file : File) : Dir := dir.insert name file

/-- Rename `src` over `dst`; nothing happens when `src` is missing. -/
def rename (dir : Dir) (src dst : FileName) : Dir :=
  match dir.lookup src with
  | some file => (dir.erase src).insert dst file
  | none => dir

end Dir

/-! ## The disk tier -/

structure DiskStore where
  dir : Dir
  maxEntries : Nat

namespace DiskStore

def new (dir : Dir) (maxEntries : Nat) : DiskStore := ⟨dir, max maxEntries 1⟩

/-- `{:016x}`. -/
def hex16 (n : UInt64) : Str := (List.range 16).reverse.map (fun i => Nat.digitChar (n.toNat / 16 ^ i % 16))

def path (hash : Str → UInt64) (key : Str) : FileName := ⟨hex16 (hash key), none⟩

def tmpPath (hash : Str → UInt64) (key : Str) : FileName := { path hash key with extension := some "tmp".toList }

def get (hash : Str → UInt64) (d : DiskStore) (key : Str) : Except Panic (Option (SystemTime × CachedResponse)) :=
  match d.dir.lookup (path hash key) with
  | none => .ok none
  | some file => do
    match ← Codec.decode file.bytes with
    | none => return none
    -- guard against the hash collision
    | some (storedKey, expiry, response) => return if storedKey = key then some (expiry, response) else none

/-- Remove the least recently written entry file when the directory is full; `.tmp` files do not count. -/
def evict (env : Env) (d : DiskStore) : DiskStore :=
  let files := (env.dirOrder.arrange d.dir.entries).filter (fun f => f.1.extension.isNone)
  if d.maxEntries ≤ files.length then
    match Iteration.headByKey (fun f => f.2.modified.nanos) files with
    | some oldest => { d with dir := d.dir.erase oldest.1 }
    | none => d
  else d

def put (hash : Str → UInt64) (env : Env) (d : DiskStore) (key : Str) (expiry : SystemTime)
    (response : CachedResponse) : DiskStore :=
  let d := d.evict env
  let written := Dir.write d.dir (tmpPath hash key) ⟨env.stamp, Codec.encode key expiry response⟩
  { d with dir := Dir.rename written (tmpPath hash key) (path hash key) }

end DiskStore

/-! ## The cache -/

inductive Lookup
  | miss
  | fresh (response : CachedResponse)
  | stale (response : CachedResponse)
deriving DecidableEq

structure ResponseCache where
  maxEntries : Nat
  entries : Entries
  disk : Option DiskStore

namespace ResponseCache

def new (maxEntries : Nat) : ResponseCache := ⟨max maxEntries 1, ∅, none⟩

def withDisk (maxEntries : Nat) (dir : Dir) : ResponseCache :=
  ⟨max maxEntries 1, ∅, some (DiskStore.new dir maxEntries)⟩

def insertMemory (env : Env) (c : ResponseCache) (key : Str) (expiry : SystemTime) (response : CachedResponse) :
    ResponseCache :=
  let entries :=
    if c.maxEntries ≤ c.entries.entries.length ∧ key ∉ c.entries then
      match Iteration.minByKey (fun e => e.2.1.nanos) (env.entriesOrder.arrange c.entries.entries) with
      | some oldest => c.entries.erase oldest.1
      | none => c.entries
    else c.entries
  { c with entries := entries.insert key (expiry, response) }

def judge (expiry : SystemTime) (response : CachedResponse) (now : SystemTime) : Lookup :=
  if expiry.after now then .fresh response else .stale response

def probe (c : ResponseCache) (key : Str) (now : SystemTime) : Option Lookup :=
  (c.entries.lookup key).map (fun e => judge e.1 e.2 now)

def readDisk (hash : Str → UInt64) (c : ResponseCache) (key : Str) :
    Except Panic (Option (SystemTime × CachedResponse)) :=
  match c.disk with
  | some disk => disk.get hash key
  | none => .ok none

def lookup (hash : Str → UInt64) (env : Env) (c : ResponseCache) (key : Str) (now : SystemTime) :
    Except Panic (Lookup × ResponseCache) :=
  match c.probe key now with
  | some result => .ok (result, c)
  | none => do
    match ← c.readDisk hash key with
    | some (expiry, response) => return (judge expiry response now, c.insertMemory env key expiry response)
    | none => return (.miss, c)

def writeDisk (hash : Str → UInt64) (env : Env) (c : ResponseCache) (key : Str) (expiry : SystemTime)
    (response : CachedResponse) : ResponseCache :=
  { c with disk := c.disk.map (fun disk => disk.put hash env key expiry response) }

def put (hash : Str → UInt64) (env : Env) (c : ResponseCache) (key : Str) (expiry : SystemTime)
    (response : CachedResponse) : ResponseCache :=
  (c.writeDisk hash env key expiry response).insertMemory env key expiry response

end ResponseCache

/-! ## What each operation changes -/

namespace DiskStore

variable {hash : Str → UInt64} {env : Env} {d : DiskStore} {key : Str} {expiry : SystemTime}
  {response : CachedResponse}

theorem lookup_of_evict {n : FileName} {f : File} (h : (d.evict env).dir.lookup n = some f) :
    d.dir.lookup n = some f := by
  unfold evict at h
  simp only at h
  split at h
  · split at h
    · exact Iteration.lookup_of_lookup_erase h
    · exact h
  · exact h

theorem dir_put : (d.put hash env key expiry response).dir =
    (((d.evict env).dir.insert (tmpPath hash key) ⟨env.stamp, Codec.encode key expiry response⟩).erase
      (tmpPath hash key)).insert (path hash key) ⟨env.stamp, Codec.encode key expiry response⟩ := by
  simp only [put, Dir.rename, Dir.write, AList.lookup_insert]

/-- **A put leaves the key's file holding the new entry.** -/
theorem lookup_put_self : (d.put hash env key expiry response).dir.lookup (path hash key) =
    some ⟨env.stamp, Codec.encode key expiry response⟩ := by
  rw [dir_put, AList.lookup_insert]

/-- **Any other file after a put was there before it, with the same bytes.** -/
theorem lookup_of_put_ne {n : FileName} {f : File} (hn : n ≠ path hash key)
    (h : (d.put hash env key expiry response).dir.lookup n = some f) : d.dir.lookup n = some f := by
  rw [dir_put, AList.lookup_insert_ne hn] at h
  have h' := Iteration.lookup_of_lookup_erase h
  by_cases ht : n = tmpPath hash key
  · subst ht
    rw [AList.lookup_erase] at h
    cases h
  · rw [AList.lookup_insert_ne ht] at h'
    exact lookup_of_evict h'

end DiskStore

namespace ResponseCache

variable {hash : Str → UInt64} {env : Env} {c : ResponseCache} {key : Str} {expiry : SystemTime}
  {response : CachedResponse}

/-- **An insertion leaves its key mapped to its value.** -/
@[simp] theorem lookup_insertMemory_self :
    (c.insertMemory env key expiry response).entries.lookup key = some (expiry, response) := by
  simp only [insertMemory, AList.lookup_insert]

/-- **Any other key an insertion leaves has the value it had.** -/
theorem lookup_of_insertMemory_ne {k : Str} {v : SystemTime × CachedResponse} (hk : k ≠ key)
    (h : (c.insertMemory env key expiry response).entries.lookup k = some v) : c.entries.lookup k = some v := by
  simp only [insertMemory] at h
  rw [AList.lookup_insert_ne hk] at h
  split at h
  · split at h
    · exact Iteration.lookup_of_lookup_erase h
    · exact h
  · exact h

theorem judge_eq (expiry : SystemTime) (response : CachedResponse) (now : SystemTime) :
    judge expiry response now = .fresh response ∧ expiry.after now = true ∨
      judge expiry response now = .stale response := by
  unfold judge
  split
  · rename_i hnow
    exact Or.inl ⟨rfl, hnow⟩
  · exact Or.inr rfl

theorem readDisk_of_no_disk (h : c.disk = none) : c.readDisk hash key = .ok none := by
  unfold readDisk
  rw [h]

theorem readDisk_of_no_file {disk : DiskStore} (hd : c.disk = some disk)
    (hf : disk.dir.lookup (DiskStore.path hash key) = none) : c.readDisk hash key = .ok none := by
  unfold readDisk
  rw [hd]
  simp only [DiskStore.get, hf]

/-- **A file that an entry was encoded into is read back under that entry's key only**, its expiry cut to whole
seconds. -/
theorem readDisk_of_file {disk : DiskStore} {file : File} {stored : Str} (hd : c.disk = some disk)
    (hf : disk.dir.lookup (DiskStore.path hash key) = some file) (hfits : Codec.Fits stored response)
    (hbytes : file.bytes = Codec.encode stored expiry response) :
    c.readDisk hash key = .ok (if stored = key then some (expiry.truncSecs, response) else none) := by
  unfold readDisk
  rw [hd]
  simp only [DiskStore.get, hf, hbytes, Codec.decode_encode hfits]
  rfl

/-- **What a lookup does**: it answers from memory, or from the disk into memory, or misses, or panics on the disk. -/
theorem lookup_cases (hash : Str → UInt64) (env : Env) (c : ResponseCache) (key : Str) (now : SystemTime) :
    (∃ expiry response, c.entries.lookup key = some (expiry, response) ∧
      c.lookup hash env key now = .ok (judge expiry response now, c)) ∨
    (∃ expiry response, c.readDisk hash key = .ok (some (expiry, response)) ∧
      c.lookup hash env key now = .ok (judge expiry response now, c.insertMemory env key expiry response)) ∨
    (c.readDisk hash key = .ok none ∧ c.lookup hash env key now = .ok (.miss, c)) ∨
    ∃ panic, c.readDisk hash key = .error panic ∧ c.lookup hash env key now = .error panic := by
  unfold lookup probe
  cases hm : c.entries.lookup key with
  | some e => exact Or.inl ⟨e.1, e.2, rfl, rfl⟩
  | none =>
    cases hread : c.readDisk hash key with
    | error panic => exact Or.inr (Or.inr (Or.inr ⟨panic, rfl, rfl⟩))
    | ok found =>
      cases found with
      | none => exact Or.inr (Or.inr (Or.inl ⟨rfl, rfl⟩))
      | some e => exact Or.inr (Or.inl ⟨e.1, e.2, rfl, rfl⟩)

/-! ## What the tiers hold -/

/-- **The tiers hold entries with `M` and files with `F` only.** -/
structure Holds (M : Str → SystemTime → CachedResponse → Prop) (F : FileName → File → Prop) (c : ResponseCache) :
    Prop where
  memory : ∀ {key expiry response}, c.entries.lookup key = some (expiry, response) → M key expiry response
  files : ∀ {disk}, c.disk = some disk → ∀ {name file}, disk.dir.lookup name = some file → F name file

variable {M M' : Str → SystemTime → CachedResponse → Prop} {F F' : FileName → File → Prop}

theorem holds_new (maxEntries : Nat) : (new maxEntries).Holds M F :=
  ⟨fun h => by simp [new] at h, fun h => by simp [new] at h⟩

theorem holds_withDisk (maxEntries : Nat) {dir : Dir} (h : ∀ {name file}, dir.lookup name = some file → F name file) :
    (withDisk maxEntries dir).Holds M F := by
  refine ⟨fun hl => by simp [withDisk] at hl, fun {disk} hd {name file} hf => ?_⟩
  simp only [withDisk, Option.some.injEq] at hd
  subst hd
  exact h hf

theorem holds_withDisk_empty (maxEntries : Nat) : (withDisk maxEntries ∅).Holds M F :=
  holds_withDisk maxEntries (fun h => by simp at h)

theorem Holds.mono (h : c.Holds M F) (hM : ∀ {key expiry response}, M key expiry response → M' key expiry response)
    (hF : ∀ {name file}, F name file → F' name file) : c.Holds M' F' :=
  ⟨fun hl => hM (h.memory hl), fun hd _ _ hf => hF (h.files hd hf)⟩

theorem Holds.insertMemory (h : c.Holds M F) (hnew : M key expiry response) :
    (c.insertMemory env key expiry response).Holds M F := by
  refine ⟨fun {k e r} hl => ?_, fun hd => h.files hd⟩
  by_cases hk : k = key
  · subst hk
    rw [lookup_insertMemory_self, Option.some.injEq, Prod.mk.injEq] at hl
    obtain ⟨rfl, rfl⟩ := hl
    exact hnew
  · exact h.memory (lookup_of_insertMemory_ne hk hl)

/-- **After a put the key holds the new entry and its file, and any other key and file what it held.** -/
theorem Holds.put (h : c.Holds M F) (hM : ∀ {k e r}, k ≠ key → M k e r → M' k e r)
    (hF : ∀ {name file}, name ≠ DiskStore.path hash key → F name file → F' name file) (hnew : M' key expiry response)
    (hfile : c.disk ≠ none → F' (DiskStore.path hash key) ⟨env.stamp, Codec.encode key expiry response⟩) :
    (c.put hash env key expiry response).Holds M' F' := by
  refine ⟨fun {k e r} hl => ?_, fun {disk} hd {name file} hf => ?_⟩
  · by_cases hk : k = key
    · subst hk
      rw [ResponseCache.put, lookup_insertMemory_self, Option.some.injEq, Prod.mk.injEq] at hl
      obtain ⟨rfl, rfl⟩ := hl
      exact hnew
    · exact hM hk (h.memory (lookup_of_insertMemory_ne hk hl))
  · obtain ⟨disk₀, hd₀, rfl⟩ := Option.map_eq_some_iff.1 hd
    by_cases hn : name = DiskStore.path hash key
    · subst hn
      rw [DiskStore.lookup_put_self, Option.some.injEq] at hf
      subst hf
      exact hfile (by simp [hd₀])
    · exact hF hn (h.files hd₀ (DiskStore.lookup_of_put_ne hn hf))

/-- **A disk read of files that entries were written to never panics**, and gives nothing or an entry written under its
key, its expiry cut to whole seconds. -/
theorem Holds.readDisk_spec {Q : Str → SystemTime → CachedResponse → Prop} (h : c.Holds M F)
    (hF : ∀ {name file}, F name file → ∃ stored expiry r, Q stored expiry r ∧ Codec.Fits stored r ∧
      file.bytes = Codec.encode stored expiry r) (hash : Str → UInt64) (key : Str) :
    ∃ found, c.readDisk hash key = .ok found ∧
      ∀ copy r, found = some (copy, r) → ∃ expiry, copy = expiry.truncSecs ∧ Q key expiry r := by
  cases hd : c.disk with
  | none => exact ⟨none, readDisk_of_no_disk hd, fun _ _ h => by cases h⟩
  | some disk =>
    cases hf : disk.dir.lookup (DiskStore.path hash key) with
    | none => exact ⟨none, readDisk_of_no_file hd hf, fun _ _ h => by cases h⟩
    | some file =>
      obtain ⟨stored, expiry, r, hQ, hfits, hbytes⟩ := hF (h.files hd hf)
      refine ⟨_, readDisk_of_file hd hf hfits hbytes, fun copy response hfound => ?_⟩
      split at hfound
      · rename_i hkey
        cases hfound
        exact ⟨expiry, rfl, hkey ▸ hQ⟩
      · cases hfound

/-- **A disk read gives an entry that a file was written with.** -/
theorem Holds.readDisk {Q : Str → CachedResponse → Prop} (h : c.Holds M F)
    (hF : ∀ {name file}, F name file → ∃ stored expiry r, Q stored r ∧ Codec.Fits stored r ∧
      file.bytes = Codec.encode stored expiry r)
    (hread : c.readDisk hash key = .ok (some (expiry, response))) : Q key response := by
  obtain ⟨found, hok, hfound⟩ := h.readDisk_spec (Q := fun stored _ r => Q stored r) hF hash key
  rw [hread, Except.ok.injEq] at hok
  obtain ⟨-, -, hQ⟩ := hfound expiry response hok.symm
  exact hQ

theorem eq_of_judge {now : SystemTime} {r : CachedResponse}
    (h : judge expiry response now = .fresh r ∨ judge expiry response now = .stale r) : r = response := by
  rcases judge_eq expiry response now with ⟨hf, -⟩ | hs
  · rw [hf] at h
    rcases h with h | h <;> cases h
    rfl
  · rw [hs] at h
    rcases h with h | h <;> cases h
    rfl

/-- **A lookup answers what the tiers hold, and keeps what they hold.** -/
theorem Holds.lookup (h : c.Holds M F)
    (hread : ∀ {expiry response}, c.readDisk hash key = .ok (some (expiry, response)) → M key expiry response)
    {now : SystemTime} {result : Lookup} {c' : ResponseCache} (hl : c.lookup hash env key now = .ok (result, c')) :
    c'.Holds M F ∧ ∀ r, result = .fresh r ∨ result = .stale r → ∃ expiry, M key expiry r := by
  rcases lookup_cases hash env c key now with ⟨expiry, response, hm, hlook⟩ | ⟨expiry, response, hr, hlook⟩ |
    ⟨-, hlook⟩ | ⟨panic, -, hlook⟩
  · rw [hlook] at hl
    cases hl
    exact ⟨h, fun r hj => eq_of_judge hj ▸ ⟨expiry, h.memory hm⟩⟩
  · rw [hlook] at hl
    cases hl
    exact ⟨h.insertMemory (hread hr), fun r hj => eq_of_judge hj ▸ ⟨expiry, hread hr⟩⟩
  · rw [hlook] at hl
    cases hl
    refine ⟨h, fun r hr => ?_⟩
    rcases hr with hr | hr <;> cases hr
  · rw [hlook] at hl
    cases hl

end ResponseCache
end Zaphyl
