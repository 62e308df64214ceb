import Zaphyl.CacheDecode
/-!
# HostileFile — cache files of any bytes

Nothing in a file makes the cursor leave it, its sums overflow or the header loop run past it; but the expiry is added
to the epoch before anything else is checked, and a number of seconds past the end of time panics.  So a file is
decoded without a panic exactly when its expiry is a time (`harmless_iff`).
-/
namespace Zaphyl
namespace Codec

/-! ## The header loop -/

namespace Reader

def remaining (r : Reader) : Nat := r.buf.length - r.pos

theorem Reads.remaining {r r' : Reader} {b : Bytes} (h : r.Reads b r') : r.remaining = b.length + r'.remaining := by
  unfold Reader.remaining
  rw [← List.length_drop, ← List.length_drop, h.rest, List.length_append]

/-- The turns that a header loop of `n` begins, the one that fails included. -/
def turns : Nat → Reader → Nat
  | 0, _ => 0
  | n + 1, r =>
    match r.string with
    | none => 1
    | some (_, r) =>
      match r.string with
      | none => 1
      | some (_, r) => turns n r + 1

/-- **Every turn but a last one reads eight bytes**, whatever count is declared. -/
theorem turns_le : ∀ (n : Nat) (r : Reader), turns n r ≤ r.remaining / 8 + 1
  | 0, r => Nat.zero_le _
  | n + 1, r => by
    cases hname : r.string with
    | none => simp [turns, hname]
    | some p =>
      cases hvalue : p.2.string with
      | none => simp [turns, hname, hvalue]
      | some q =>
        obtain ⟨b, hb, -⟩ := string_eq_some hname
        obtain ⟨c, hc, -⟩ := string_eq_some hvalue
        have hreads := ((stringBytes_eq_some hb).trans (stringBytes_eq_some hc)).remaining
        have hlen : ∀ bytes : Bytes, (writeBytes bytes).length = 4 + bytes.length := by
          intro bytes
          rw [writeBytes, List.length_append, Little.length_toLe]
        rw [List.length_append, hlen, hlen] at hreads
        have ih := turns_le n q.2
        simp only [turns, hname, hvalue]
        omega

end Reader

/-- The declared number of headers, and the reader before them. -/
def headerCount (buf : Bytes) : Option (Nat × Reader) := do
  let (_, r) ← Reader.string ⟨buf, 0⟩
  let (_, r) ← r.u64
  let (_, r) ← r.u16
  r.u32

theorem headerCount_eq_some {buf : Bytes} {count : Nat} {r : Reader} (h : headerCount buf = some (count, r)) :
    count < 2 ^ 32 ∧ r.remaining ≤ buf.length := by
  obtain ⟨⟨key, r₁⟩, hkey, h⟩ := Option.bind_eq_some_iff.1 h
  obtain ⟨⟨secs, r₂⟩, hsecs, h⟩ := Option.bind_eq_some_iff.1 h
  obtain ⟨⟨status, r₃⟩, hstatus, hcount⟩ := Option.bind_eq_some_iff.1 h
  obtain ⟨b, hb, -⟩ := Reader.string_eq_some hkey
  obtain ⟨hlt, hlast⟩ := Reader.int_eq_some hcount
  have hstart : Reader.remaining ⟨buf, 0⟩ = buf.length := rfl
  have h₁ := (Reader.stringBytes_eq_some hb).remaining
  have h₂ := (Reader.int_eq_some hsecs).2.remaining
  have h₃ := (Reader.int_eq_some hstatus).2.remaining
  have h₄ := hlast.remaining
  exact ⟨hlt, by omega⟩

/-! ## The expiry -/

/-- **A file is decoded without a panic**: decoding returns, every slice it takes is in bounds and its end does not
overflow, the header loop and the space kept for it are bounded by the file, and no declared count makes that space
overflow. -/
structure Harmless (buf : Bytes) : Prop where
  returns : ∃ found, decode buf = .ok found
  slices : ∀ {r r' : Reader} {n : Nat} {b : Bytes}, r.take n = some (b, r') →
    r.pos + n ≤ r.buf.length ∧ r.pos + n < 2 ^ 64
  loop : ∀ {count : Nat} {r : Reader}, headerCount buf = some (count, r) → r.turns count ≤ buf.length / 8 + 1
  capacity : ∀ {count : Nat} {r : Reader}, headerCount buf = some (count, r) →
    min count (r.remaining / 8) ≤ buf.length / 8 ∧ min count (r.remaining / 8) < 2 ^ 32

/-- The declared length of the key. -/
def keyLen (buf : Bytes) : Nat := Little.ofLe (buf.take 4)

/-- The file is too short for its key and the eight bytes of its expiry, or these count less than `2 ^ 63` seconds. -/
def ExpiryInRange (buf : Bytes) : Prop :=
  buf.length < 12 + keyLen buf ∨ Little.ofLe ((buf.drop (4 + keyLen buf)).take 8) < 2 ^ 63

theorem keyLen_lt (buf : Bytes) : keyLen buf < 2 ^ 32 := by
  have h := Little.ofLe_lt (buf.take 4)
  have hlen : (buf.take 4).length ≤ 4 := List.length_take_le 4 buf
  have hpow : 256 ^ (buf.take 4).length ≤ 256 ^ 4 := Nat.pow_le_pow_right (by decide) hlen
  unfold keyLen
  omega

/-- The key and the expiry are read exactly where the file is long enough for them. -/
theorem reads_start_iff {buf : Bytes} {secs : Nat} :
    (∃ key r₁ r₂, Reader.string ⟨buf, 0⟩ = some (key, r₁) ∧ r₁.u64 = some (secs, r₂)) ↔
      12 + keyLen buf ≤ buf.length ∧ secs = Little.ofLe ((buf.drop (4 + keyLen buf)).take 8) := by
  constructor
  · rintro ⟨key, r₁, r₂, hkey, hsecs⟩
    obtain ⟨⟨len, r⟩, hlen, hkey⟩ := Option.bind_eq_some_iff.1 hkey
    obtain ⟨⟨bytes, r'⟩, hbytes, hkey⟩ := Option.bind_eq_some_iff.1 hkey
    obtain ⟨⟨word, s⟩, hword, hlen⟩ := Option.map_eq_some_iff.1 hlen
    obtain ⟨⟨word', s'⟩, hword', hsecs⟩ := Option.map_eq_some_iff.1 hsecs
    cases hkey
    cases hlen
    cases hsecs
    obtain ⟨-, -, rfl, rfl⟩ := Reader.take_eq_some.1 hword
    obtain ⟨-, -, -, rfl⟩ := Reader.take_eq_some.1 hbytes
    obtain ⟨-, hinside, rfl, -⟩ := Reader.take_eq_some.1 hword'
    simp only [List.drop_zero, Nat.zero_add] at hinside ⊢
    exact ⟨by unfold keyLen; omega, rfl⟩
  · rintro ⟨hlong, rfl⟩
    have hlt := keyLen_lt buf
    have hword : Reader.u32 ⟨buf, 0⟩ = some (keyLen buf, ⟨buf, 4⟩) :=
      Option.map_eq_some_iff.2 ⟨(buf.take 4, ⟨buf, 4⟩), Reader.take_of_le (by omega) (by omega), rfl⟩
    have hbytes : Reader.take ⟨buf, 4⟩ (keyLen buf) = some ((buf.drop 4).take (keyLen buf), ⟨buf, 4 + keyLen buf⟩) :=
      Reader.take_of_le (by omega) (by omega)
    have hlast : Reader.take ⟨buf, 4 + keyLen buf⟩ 8 =
        some ((buf.drop (4 + keyLen buf)).take 8, ⟨buf, 4 + keyLen buf + 8⟩) :=
      Reader.take_of_le (by omega) (by omega)
    refine ⟨Utf8.lossy ((buf.drop 4).take (keyLen buf)), ⟨buf, 4 + keyLen buf⟩, ⟨buf, 4 + keyLen buf + 8⟩, ?_, ?_⟩
    · unfold Reader.string
      simp only [hword, hbytes, Option.bind_eq_bind, Option.bind_some, Option.pure_def]
    · exact Option.map_eq_some_iff.2 ⟨_, hlast, rfl⟩

theorem decode_isOk_iff (buf : Bytes) : (∃ found, decode buf = .ok found) ↔ ExpiryInRange buf := by
  unfold ExpiryInRange
  by_cases hlong : 12 + keyLen buf ≤ buf.length
  · obtain ⟨key, r₁, r₂, hkey, hsecs⟩ := reads_start_iff.2 ⟨hlong, rfl⟩
    rw [decode_of_reads hkey hsecs]
    have hshort : ¬ buf.length < 12 + keyLen buf := by omega
    rw [or_iff_right hshort, ← SystemTime.add_epoch_isOk_iff]
    cases SystemTime.epoch.add (Little.ofLe ((buf.drop (4 + keyLen buf)).take 8)) with
    | error panic => exact iff_of_false (fun ⟨_, h⟩ => by cases h) (fun ⟨_, h⟩ => by cases h)
    | ok time => exact iff_of_true ⟨_, rfl⟩ ⟨time, rfl⟩
  · refine iff_of_true ⟨none, ?_⟩ (Or.inl (by omega))
    rcases decode_cases buf with hnone | ⟨key, secs, r₁, r₂, hkey, hsecs⟩
    · exact hnone
    · exact absurd (reads_start_iff.1 ⟨key, r₁, r₂, hkey, hsecs⟩).1 hlong

/-- **A file is decoded without a panic exactly when its expiry is a time.** -/
theorem harmless_iff (buf : Bytes) : Harmless buf ↔ ExpiryInRange buf := by
  rw [← decode_isOk_iff]
  refine ⟨fun h => h.returns, fun h => ⟨h, fun ht => ?_, fun hc => ?_, fun hc => ?_⟩⟩
  · obtain ⟨hover, hinside, -, -⟩ := Reader.take_eq_some.1 ht
    exact ⟨hinside, hover⟩
  · rename_i count r
    have hturns := Reader.turns_le count r
    have hremaining := (headerCount_eq_some hc).2
    omega
  · obtain ⟨hlt, hremaining⟩ := headerCount_eq_some hc
    omega

/-- An empty key, and an expiry of `2 ^ 64 - 1` seconds. -/
def hostileFile : Bytes := [0, 0, 0, 0] ++ List.replicate 8 0xFF

def hostileDir (hash : Str → UInt64) (key : Str) : Dir :=
  Dir.write ∅ (DiskStore.path hash key) ⟨SystemTime.epoch, hostileFile⟩

/-- **A file with a late expiry panics every lookup that reads it.** -/
theorem hostileFile_panics :
    decode hostileFile = .error .timeOverflow ∧ ¬ Harmless hostileFile ∧
      ∀ (hash : Str → UInt64) (env : Env) (key : Str) (now : SystemTime),
        (ResponseCache.withDisk 8 (hostileDir hash key)).lookup hash env key now = .error .timeOverflow := by
  have hpanic : decode hostileFile = .error .timeOverflow := by decide
  refine ⟨hpanic, fun h => ?_, fun hash env key now => ?_⟩
  · obtain ⟨found, hfound⟩ := h.returns
    rw [hpanic] at hfound
    cases hfound
  · have hread : (ResponseCache.withDisk 8 (hostileDir hash key)).readDisk hash key = .error .timeOverflow := by
      simp only [ResponseCache.withDisk, ResponseCache.readDisk, DiskStore.new, DiskStore.get, hostileDir, Dir.write,
        AList.lookup_insert, hpanic]
      rfl
    have hmiss : (ResponseCache.withDisk 8 (hostileDir hash key)).probe key now = none := rfl
    rw [ResponseCache.lookup, hmiss, hread]
    rfl

end Codec
end Zaphyl
