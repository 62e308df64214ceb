import Zaphyl.Http
import Zaphyl.Little
import Zaphyl.Time
/-!
# CacheCodec — a cache entry as the bytes of its file

`encode` writes the key, the expiry in whole seconds, the status, the headers and the body, each string behind its
length; `decode` reads them through a bounds-checked cursor.  `decode_encode` is the round trip: a decoded file is the
entry that was encoded, its expiry cut to whole seconds.
-/
namespace Zaphyl

structure CachedResponse where
  status : UInt16
  headers : List (Str × Str)
  body : Bytes
deriving DecidableEq

namespace CachedResponse

def etag (r : CachedResponse) : Option Str :=
  (r.headers.find? (fun h => Text.eqIgnoreAsciiCase h.1 "etag".toList)).map Prod.snd

end CachedResponse

namespace Codec

/-! ## Writing -/

/-- Length-prefix and append a byte string; the length is cast to 32 bits. -/
def writeBytes (bytes : Bytes) : Bytes := Little.toLe 4 bytes.length ++ bytes

def writeHeader (h : Str × Str) : Bytes := writeBytes (Utf8.encode h.1) ++ writeBytes (Utf8.encode h.2)

def encode (key : Str) (expiry : SystemTime) (response : CachedResponse) : Bytes :=
  writeBytes (Utf8.encode key) ++ (Little.toLe 8 expiry.unixSecs ++ (Little.toLe 2 response.status.toNat ++
    (Little.toLe 4 response.headers.length ++ (response.headers.flatMap writeHeader ++
      (Little.toLe 8 response.body.length ++ response.body)))))

/-! ## Reading -/

structure Reader where
  buf : Bytes
  pos : Nat

namespace Reader

/-- The next `n` bytes; none past the end, or where the cursor would overflow. -/
def take (r : Reader) (n : Nat) : Option (Bytes × Reader) :=
  if r.pos + n < 2 ^ 64 then
    if r.pos + n ≤ r.buf.length then some ((r.buf.drop r.pos).take n, { r with pos := r.pos + n }) else none
  else none

def int (r : Reader) (k : Nat) : Option (Nat × Reader) := (r.take k).map (fun p => (Little.ofLe p.1, p.2))

def u16 (r : Reader) : Option (Nat × Reader) := r.int 2

def u32 (r : Reader) : Option (Nat × Reader) := r.int 4

def u64 (r : Reader) : Option (Nat × Reader) := r.int 8

def string (r : Reader) : Option (Str × Reader) := do
  let (len, r) ← r.u32
  let (bytes, r) ← r.take len
  return (Utf8.lossy bytes, r)

def headers : Nat → Reader → Option (List (Str × Str) × Reader)
  | 0, r => some ([], r)
  | n + 1, r => do
    let (name, r) ← r.string
    let (value, r) ← r.string
    let (rest, r) ← headers n r
    return ((name, value) :: rest, r)

def response (r : Reader) : Option (CachedResponse × Reader) := do
  let (status, r) ← r.u16
  let (headerCount, r) ← r.u32
  let (headers, r) ← headers headerCount r
  let (bodyLen, r) ← r.u64
  let (body, r) ← r.take bodyLen
  return (⟨UInt16.ofNat status, headers, body⟩, r)

end Reader

/-- Deserialize a cache entry, or `none` if truncated.  The expiry is added to the epoch, which can panic, before the
rest is read. -/
def decode (buf : Bytes) : Except Panic (Option (Str × SystemTime × CachedResponse)) :=
  match (do let (key, r) ← Reader.string ⟨buf, 0⟩; let (secs, r) ← r.u64; return (key, secs, r)) with
  | none => .ok none
  | some (key, secs, r) => do
    let expiry ← SystemTime.epoch.add secs
    return r.response.map (fun p => (key, expiry, p.1))

/-! ## The round trip -/

/-- **An entry the file format can hold**: every length fits the field that stores it, and the file is a byte vector,
at most `isize::MAX` long. -/
structure Fits (key : Str) (response : CachedResponse) : Prop where
  keyLen : (Utf8.encode key).length < 2 ^ 32
  count : response.headers.length < 2 ^ 32
  header : ∀ h ∈ response.headers, (Utf8.encode h.1).length < 2 ^ 32 ∧ (Utf8.encode h.2).length < 2 ^ 32
  vec : (encode key SystemTime.epoch response).length < 2 ^ 63

theorem length_encode (key : Str) (e e' : SystemTime) (r : CachedResponse) :
    (encode key e r).length = (encode key e' r).length := by
  simp [encode]

structure Reader.At (r : Reader) (rest : Bytes) : Prop where
  vec : r.buf.length < 2 ^ 63
  inside : r.pos ≤ r.buf.length
  rest : r.buf.drop r.pos = rest

theorem Reader.At.take {r : Reader} {x rest : Bytes} (h : r.At (x ++ rest)) {n : Nat} (hn : n = x.length) :
    ∃ r', r.take n = some (x, r') ∧ r'.At rest := by
  subst hn
  have hlen : r.buf.length - r.pos = x.length + rest.length := by
    rw [← List.length_drop, h.rest, List.length_append]
  have hin := h.inside
  have hvec := h.vec
  have hend : r.pos + x.length ≤ r.buf.length := by omega
  refine ⟨⟨r.buf, r.pos + x.length⟩, ?_, hvec, hend, ?_⟩
  · unfold Reader.take
    rw [if_pos (by omega), if_pos hend, h.rest, List.take_left]
  · rw [← List.drop_drop, h.rest, List.drop_left]

theorem Reader.At.int {r : Reader} {k n : Nat} {rest : Bytes} (h : r.At (Little.toLe k n ++ rest))
    (hn : n < 256 ^ k) : ∃ r', r.int k = some (n, r') ∧ r'.At rest := by
  obtain ⟨r', ht, hat⟩ := h.take (Little.length_toLe k n).symm
  refine ⟨r', ?_, hat⟩
  unfold Reader.int
  rw [ht, Option.map_some, Little.ofLe_toLe_of_lt hn]

theorem Reader.At.string {r : Reader} {s : Str} {rest : Bytes} (h : r.At (writeBytes (Utf8.encode s) ++ rest))
    (hs : (Utf8.encode s).length < 2 ^ 32) : ∃ r', r.string = some (s, r') ∧ r'.At rest := by
  unfold writeBytes at h
  rw [List.append_assoc] at h
  obtain ⟨r₁, h₁, hat₁⟩ := h.int (by omega)
  obtain ⟨r₂, h₂, hat₂⟩ := hat₁.take rfl
  refine ⟨r₂, ?_, hat₂⟩
  unfold Reader.string Reader.u32
  simp only [h₁, h₂, Option.bind_eq_bind, Option.bind_some, Utf8.lossy_encode, Option.pure_def]

theorem Reader.At.headers : ∀ {hs : List (Str × Str)} {r : Reader} {rest : Bytes},
    r.At (hs.flatMap writeHeader ++ rest) →
    (∀ h ∈ hs, (Utf8.encode h.1).length < 2 ^ 32 ∧ (Utf8.encode h.2).length < 2 ^ 32) →
    ∃ r', Reader.headers hs.length r = some (hs, r') ∧ r'.At rest
  | [], r, _, h, _ => ⟨r, rfl, h⟩
  | (name, value) :: hs, r, rest, h, hlen => by
    rw [List.flatMap_cons, writeHeader, List.append_assoc, List.append_assoc] at h
    obtain ⟨hname, hvalue⟩ := hlen (name, value) List.mem_cons_self
    obtain ⟨r₁, h₁, hat₁⟩ := h.string hname
    obtain ⟨r₂, h₂, hat₂⟩ := hat₁.string hvalue
    obtain ⟨r₃, h₃, hat₃⟩ := Reader.At.headers hat₂ (fun x hx => hlen x (List.mem_cons_of_mem _ hx))
    refine ⟨r₃, ?_, hat₃⟩
    rw [List.length_cons, Reader.headers]
    simp only [h₁, h₂, h₃, Option.bind_eq_bind, Option.bind_some, Option.pure_def]

/-- **An encoded entry is read to its end.** -/
theorem reads_encode {key : Str} {response : CachedResponse} (hf : Fits key response) (expiry : SystemTime) :
    ∃ r₁ r₂ r₃, Reader.string ⟨encode key expiry response, 0⟩ = some (key, r₁) ∧
      r₁.u64 = some (expiry.unixSecs, r₂) ∧ r₂.response = some (response, r₃) ∧ r₃.At [] := by
  have hvec : (encode key expiry response).length < 2 ^ 63 := by
    rw [length_encode key expiry SystemTime.epoch]
    exact hf.vec
  have hstart : Reader.At ⟨encode key expiry response, 0⟩ (encode key expiry response ++ []) :=
    ⟨hvec, Nat.zero_le _, (List.append_nil _).symm⟩
  have hbody : response.body.length < 256 ^ 8 := by
    have := hf.vec
    simp only [encode, List.length_append] at this
    omega
  have hsecs : expiry.unixSecs < 256 ^ 8 := by
    have := expiry.unixSecs_lt
    omega
  have hstatus : response.status.toNat < 256 ^ 2 := response.status.toNat_lt
  have hcount : response.headers.length < 256 ^ 4 := hf.count
  -- the pieces, in the order they are read
  simp only [encode, List.append_assoc] at hstart ⊢
  obtain ⟨r₁, h₁, hat₁⟩ := hstart.string hf.keyLen
  obtain ⟨r₂, h₂, hat₂⟩ := hat₁.int hsecs
  obtain ⟨r₃, h₃, hat₃⟩ := hat₂.int hstatus
  obtain ⟨r₄, h₄, hat₄⟩ := hat₃.int hcount
  obtain ⟨r₅, h₅, hat₅⟩ := hat₄.headers hf.header
  obtain ⟨r₆, h₆, hat₆⟩ := hat₅.int hbody
  obtain ⟨r₇, h₇, hat₇⟩ := hat₆.take rfl
  refine ⟨r₁, r₂, r₇, h₁, h₂, ?_, hat₇⟩
  unfold Reader.response Reader.u16 Reader.u32 Reader.u64
  simp only [h₃, h₄, h₅, h₆, h₇, Option.bind_eq_bind, Option.bind_some, Option.pure_def, UInt16.ofNat_toNat]

/-- What is decoded once the key and the seconds are read. -/
theorem decode_of_reads {buf : Bytes} {key : Str} {secs : Nat} {r₁ r₂ : Reader}
    (hkey : Reader.string ⟨buf, 0⟩ = some (key, r₁)) (hsecs : r₁.u64 = some (secs, r₂)) :
    decode buf = (SystemTime.epoch.add secs).map (fun expiry => r₂.response.map (fun p => (key, expiry, p.1))) := by
  unfold decode
  simp only [hkey, hsecs, Option.bind_eq_bind, Option.bind_some, Option.pure_def]
  cases SystemTime.epoch.add secs <;> rfl

/-- **Decoding an encoded entry gives the entry, its expiry cut to whole seconds.** -/
theorem decode_encode {key : Str} {response : CachedResponse} (hf : Fits key response) (expiry : SystemTime) :
    decode (encode key expiry response) = .ok (some (key, expiry.truncSecs, response)) := by
  obtain ⟨r₁, r₂, r₃, hkey, hsecs, hresponse, -⟩ := reads_encode hf expiry
  rw [decode_of_reads hkey hsecs, SystemTime.add_epoch_unixSecs, hresponse]
  rfl

end Codec
end Zaphyl
