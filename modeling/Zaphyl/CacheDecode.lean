import Zaphyl.CacheStore
/-!
# CacheDecode — what the decoder accepts

Each read of the cursor consumes the bytes it answers, so a decoded entry is an encoding that the file starts with
(`encode_isPrefix_of_decode`), and more bytes behind the file change no read that succeeded (`decode_append`).  A file
that is cut short is therefore not decoded (`decode_of_strictPrefix`).
-/
namespace Zaphyl
namespace Codec

/-! ## The bytes a read consumes -/

/-- The bytes `b` lie at the cursor of `r`, and `r'` is `r` past them. -/
structure Reader.Reads (r : Reader) (b : Bytes) (r' : Reader) : Prop where
  buf : r'.buf = r.buf
  pos : r'.pos = r.pos + b.length
  rest : r.buf.drop r.pos = b ++ r'.buf.drop r'.pos

namespace Reader

theorem Reads.nil (r : Reader) : r.Reads [] r := ⟨rfl, rfl, rfl⟩

theorem Reads.trans {r r' r'' : Reader} {b c : Bytes} (h : r.Reads b r') (h' : r'.Reads c r'') :
    r.Reads (b ++ c) r'' := by
  refine ⟨h'.buf.trans h.buf, ?_, ?_⟩
  · rw [h'.pos, h.pos, List.length_append, Nat.add_assoc]
  · rw [h.rest, h'.rest, List.append_assoc]

/-- **A slice is taken exactly where it lies inside the buffer and its end does not overflow.** -/
theorem take_eq_some {r r' : Reader} {n : Nat} {b : Bytes} :
    r.take n = some (b, r') ↔ r.pos + n < 2 ^ 64 ∧ r.pos + n ≤ r.buf.length ∧
      b = (r.buf.drop r.pos).take n ∧ r' = ⟨r.buf, r.pos + n⟩ := by
  unfold take
  by_cases hover : r.pos + n < 2 ^ 64
  · rw [if_pos hover]
    by_cases hinside : r.pos + n ≤ r.buf.length
    · rw [if_pos hinside, Option.some.injEq, Prod.mk.injEq]
      exact ⟨fun h => ⟨hover, hinside, h.1.symm, h.2.symm⟩, fun h => ⟨h.2.2.1.symm, h.2.2.2.symm⟩⟩
    · rw [if_neg hinside]
      exact iff_of_false (fun h => by cases h) (fun h => hinside h.2.1)
  · rw [if_neg hover]
    exact iff_of_false (fun h => by cases h) (fun h => hover h.1)

theorem take_of_le {buf : Bytes} {pos n : Nat} (hover : pos + n < 2 ^ 64) (hinside : pos + n ≤ buf.length) :
    take ⟨buf, pos⟩ n = some ((buf.drop pos).take n, ⟨buf, pos + n⟩) :=
  take_eq_some.2 ⟨hover, hinside, rfl, rfl⟩

theorem reads_take {r r' : Reader} {n : Nat} {b : Bytes} (h : r.take n = some (b, r')) :
    b.length = n ∧ r.Reads b r' := by
  obtain ⟨-, hinside, rfl, rfl⟩ := take_eq_some.1 h
  have hlen : ((r.buf.drop r.pos).take n).length = n := by
    rw [List.length_take, List.length_drop]
    omega
  refine ⟨hlen, rfl, by rw [hlen], ?_⟩
  rw [← List.drop_drop, List.take_append_drop]

theorem int_eq_some {r r' : Reader} {k n : Nat} (h : r.int k = some (n, r')) :
    n < 256 ^ k ∧ r.Reads (Little.toLe k n) r' := by
  obtain ⟨⟨b, r₁⟩, ht, heq⟩ := Option.map_eq_some_iff.1 h
  rw [Prod.mk.injEq] at heq
  obtain ⟨rfl, rfl⟩ := heq
  obtain ⟨hlen, hreads⟩ := reads_take ht
  subst hlen
  rw [Little.toLe_ofLe]
  exact ⟨Little.ofLe_lt b, hreads⟩

/-- The bytes of a length-prefixed string. -/
def stringBytes (r : Reader) : Option (Bytes × Reader) := do
  let (len, r) ← r.u32
  r.take len

theorem string_eq_stringBytes (r : Reader) : r.string = r.stringBytes.map (fun p => (Utf8.lossy p.1, p.2)) := by
  unfold string stringBytes
  cases r.u32 with
  | none => rfl
  | some p =>
    show (p.2.take p.1).bind _ = (p.2.take p.1).map _
    cases p.2.take p.1 <;> rfl

theorem stringBytes_eq_some {r r' : Reader} {b : Bytes} (h : r.stringBytes = some (b, r')) :
    r.Reads (writeBytes b) r' := by
  obtain ⟨⟨len, r₁⟩, hlen, ht⟩ := Option.bind_eq_some_iff.1 h
  obtain ⟨-, hlenReads⟩ := int_eq_some hlen
  obtain ⟨heq, hreads⟩ := reads_take ht
  subst heq
  exact hlenReads.trans hreads

theorem string_eq_some {r r' : Reader} {s : Str} (h : r.string = some (s, r')) :
    ∃ b, r.stringBytes = some (b, r') ∧ s = Utf8.lossy b := by
  rw [string_eq_stringBytes] at h
  obtain ⟨⟨b, r₁⟩, hb, heq⟩ := Option.map_eq_some_iff.1 h
  rw [Prod.mk.injEq] at heq
  obtain ⟨rfl, rfl⟩ := heq
  exact ⟨b, hb, rfl⟩

/-- The strings that a header loop of `n` turns reads, up to the one that fails. -/
def headerStrings : Nat → Reader → List Bytes
  | 0, _ => []
  | n + 1, r =>
    match r.stringBytes with
    | none => []
    | some (name, r) =>
      match r.stringBytes with
      | none => [name]
      | some (value, r) => name :: value :: headerStrings n r

theorem headers_eq_some : ∀ {n : Nat} {r r' : Reader} {hs : List (Str × Str)}, headers n r = some (hs, r') →
    (∀ b ∈ headerStrings n r, Utf8.Valid b) → hs.length = n ∧ r.Reads (hs.flatMap writeHeader) r'
  | 0, r, r', hs, h, _ => by
    cases h
    exact ⟨rfl, Reads.nil r⟩
  | n + 1, r, r', hs, h, hvalid => by
    obtain ⟨⟨name, r₁⟩, hname, h⟩ := Option.bind_eq_some_iff.1 h
    obtain ⟨⟨value, r₂⟩, hvalue, h⟩ := Option.bind_eq_some_iff.1 h
    obtain ⟨⟨rest, r₃⟩, hrest, h⟩ := Option.bind_eq_some_iff.1 h
    cases h
    obtain ⟨b, hb, rfl⟩ := string_eq_some hname
    obtain ⟨c, hc, rfl⟩ := string_eq_some hvalue
    simp only [headerStrings, hb, hc, List.forall_mem_cons] at hvalid
    obtain ⟨hbvalid, hcvalid, hvalid⟩ := hvalid
    obtain ⟨hlen, hreads⟩ := headers_eq_some hrest hvalid
    refine ⟨by rw [List.length_cons, hlen], ?_⟩
    rw [List.flatMap_cons, writeHeader, Utf8.encode_lossy hbvalid, Utf8.encode_lossy hcvalid]
    exact ((stringBytes_eq_some hb).trans (stringBytes_eq_some hc)).trans hreads

theorem response_eq_some {r r' : Reader} {response : CachedResponse} (h : r.response = some (response, r')) :
    ∃ status count r₁ r₂, r.u16 = some (status, r₁) ∧ r₁.u32 = some (count, r₂) ∧
      ((∀ b ∈ headerStrings count r₂, Utf8.Valid b) →
        r.Reads (Little.toLe 2 response.status.toNat ++ (Little.toLe 4 response.headers.length ++
          (response.headers.flatMap writeHeader ++ (Little.toLe 8 response.body.length ++ response.body)))) r') := by
  obtain ⟨⟨status, r₁⟩, hstatus, h⟩ := Option.bind_eq_some_iff.1 h
  obtain ⟨⟨count, r₂⟩, hcount, h⟩ := Option.bind_eq_some_iff.1 h
  obtain ⟨⟨hs, r₃⟩, hheaders, h⟩ := Option.bind_eq_some_iff.1 h
  obtain ⟨⟨len, r₄⟩, hlen, h⟩ := Option.bind_eq_some_iff.1 h
  obtain ⟨⟨body, r₅⟩, hbody, h⟩ := Option.bind_eq_some_iff.1 h
  cases h
  refine ⟨status, count, r₁, r₂, hstatus, hcount, fun hvalid => ?_⟩
  obtain ⟨hlt, hstatusReads⟩ := int_eq_some hstatus
  obtain ⟨-, hcountReads⟩ := int_eq_some hcount
  obtain ⟨hhlen, hheaderReads⟩ := headers_eq_some hheaders hvalid
  obtain ⟨-, hlenReads⟩ := int_eq_some hlen
  obtain ⟨hblen, hbodyReads⟩ := reads_take hbody
  have hword : (UInt16.ofNat status).toNat = status := by
    rw [UInt16.toNat_ofNat']
    exact Nat.mod_eq_of_lt hlt
  simp only [hword, hhlen, hblen]
  exact hstatusReads.trans (hcountReads.trans (hheaderReads.trans (hlenReads.trans hbodyReads)))

end Reader

/-! ## What is accepted -/

/-- Every byte string that decoding reads behind its length. -/
def stringsRead (buf : Bytes) : List Bytes :=
  match Reader.stringBytes ⟨buf, 0⟩ with
  | none => []
  | some (key, r) =>
    match (do let (_, r) ← r.u64; let (_, r) ← r.u16; r.u32) with
    | none => [key]
    | some (count, r) => key :: Reader.headerStrings count r

/-- **What decoding does**: it finds the file too short for its key and expiry, or reads them and then the response. -/
theorem decode_cases (buf : Bytes) :
    decode buf = .ok none ∨ ∃ key secs r₁ r₂, Reader.string ⟨buf, 0⟩ = some (key, r₁) ∧ r₁.u64 = some (secs, r₂) := by
  cases hkey : Reader.string ⟨buf, 0⟩ with
  | none => exact Or.inl (by simp [decode, hkey])
  | some p =>
    cases hsecs : p.2.u64 with
    | none => exact Or.inl (by simp [decode, hkey, hsecs])
    | some q => exact Or.inr ⟨p.1, q.1, p.2, q.2, rfl, hsecs⟩

/-- A decoded entry was read to its end, and its expiry is that of the seconds read. -/
theorem decode_eq_some {buf : Bytes} {key : Str} {expiry : SystemTime} {response : CachedResponse}
    (h : decode buf = .ok (some (key, expiry, response))) :
    ∃ r₁ r₂ r₃, Reader.string ⟨buf, 0⟩ = some (key, r₁) ∧ r₁.u64 = some (expiry.unixSecs, r₂) ∧
      r₂.response = some (response, r₃) := by
  rcases decode_cases buf with hnone | ⟨key', secs, r₁, r₂, hkey, hsecs⟩
  · rw [hnone] at h
    cases h
  · rw [decode_of_reads hkey hsecs] at h
    cases hadd : SystemTime.epoch.add secs with
    | error panic =>
      rw [hadd] at h
      cases h
    | ok time =>
      rw [hadd] at h
      obtain ⟨⟨response', r₃⟩, hresponse, heq⟩ := Option.map_eq_some_iff.1 (Except.ok.inj h)
      cases heq
      rw [← SystemTime.unixSecs_of_add_epoch hadd] at hsecs
      exact ⟨r₁, r₂, r₃, hkey, hsecs, hresponse⟩

/-- **A decoded entry, its strings well-formed, is an encoding the file starts with.** -/
theorem encode_isPrefix_of_decode {buf : Bytes} {key : Str} {expiry : SystemTime} {response : CachedResponse}
    (h : decode buf = .ok (some (key, expiry, response))) (hvalid : ∀ b ∈ stringsRead buf, Utf8.Valid b) :
    encode key expiry response <+: buf := by
  obtain ⟨r₁, r₂, r₃, hkey, hsecs, hresponse⟩ := decode_eq_some h
  obtain ⟨b, hb, rfl⟩ := Reader.string_eq_some hkey
  obtain ⟨status, count, r₄, r₅, hstatus, hcount, hreads⟩ := Reader.response_eq_some hresponse
  have hstrings : stringsRead buf = b :: Reader.headerStrings count r₅ := by
    unfold stringsRead
    simp only [hb, hsecs, hstatus, hcount, Option.bind_eq_bind, Option.bind_some]
  rw [hstrings, List.forall_mem_cons] at hvalid
  have hall := (Reader.stringBytes_eq_some hb).trans ((Reader.int_eq_some hsecs).2.trans (hreads hvalid.2))
  rw [encode, Utf8.encode_lossy hvalid.1]
  exact ⟨_, hall.rest.symm⟩

/-! ## More bytes behind the file -/

def Reader.extend (r : Reader) (t : Bytes) : Reader := ⟨r.buf ++ t, r.pos⟩

namespace Reader

/-- A read that succeeds the same way when more bytes follow. -/
def Stable {α : Type} (f : Reader → Option (α × Reader)) : Prop :=
  ∀ (t : Bytes) {r r' : Reader} {a : α}, f r = some (a, r') → f (r.extend t) = some (a, r'.extend t)

theorem Stable.bind {α β : Type} {f : Reader → Option (α × Reader)} {g : α → Reader → Option (β × Reader)}
    (hf : Stable f) (hg : ∀ a, Stable (g a)) : Stable (fun r => (f r).bind (fun p => g p.1 p.2)) := by
  intro t r r'' b h
  obtain ⟨⟨a, r'⟩, ha, hb⟩ := Option.bind_eq_some_iff.1 h
  simp only [hf t ha, Option.bind_some]
  exact hg a t hb

theorem stable_some {α : Type} (a : α) : Stable (fun r => some (a, r)) := by
  intro t r r' b h
  cases h
  rfl

theorem stable_take (n : Nat) : Stable (fun r => r.take n) := by
  intro t r r' b h
  obtain ⟨hover, hinside, rfl, rfl⟩ := take_eq_some.1 h
  have hsame : (r.buf.drop r.pos).take n = ((r.buf ++ t).drop r.pos).take n := by
    rw [List.drop_append_of_le_length (by omega), List.take_append_of_le_length (by rw [List.length_drop]; omega)]
  have hinside' : r.pos + n ≤ (r.buf ++ t).length := by
    rw [List.length_append]
    omega
  exact take_eq_some.2 ⟨hover, hinside', hsame, rfl⟩

theorem stable_int (k : Nat) : Stable (fun r => r.int k) := by
  intro t r r' n h
  obtain ⟨⟨b, r₁⟩, ht, heq⟩ := Option.map_eq_some_iff.1 h
  cases heq
  simp only [int, stable_take k t ht, Option.map_some]

theorem stable_string : Stable string :=
  (stable_int 4).bind (fun len => (stable_take len).bind (fun bytes => stable_some (Utf8.lossy bytes)))

theorem stable_headers : ∀ n : Nat, Stable (headers n)
  | 0 => stable_some []
  | n + 1 => stable_string.bind (fun name => stable_string.bind (fun value =>
      (stable_headers n).bind (fun rest => stable_some ((name, value) :: rest))))

theorem stable_response : Stable response :=
  (stable_int 2).bind (fun status => (stable_int 4).bind (fun count => (stable_headers count).bind (fun hs =>
    (stable_int 8).bind (fun len => (stable_take len).bind (fun body =>
      stable_some (CachedResponse.mk (UInt16.ofNat status) hs body))))))

end Reader

/-- **More bytes behind a file that is decoded change nothing.** -/
theorem decode_append {buf : Bytes} {key : Str} {expiry : SystemTime} {response : CachedResponse}
    (h : decode buf = .ok (some (key, expiry, response))) (t : Bytes) :
    decode (buf ++ t) = .ok (some (key, expiry, response)) := by
  obtain ⟨r₁, r₂, r₃, hkey, hsecs, hresponse⟩ := decode_eq_some h
  rw [decode_of_reads hkey hsecs, hresponse] at h
  have hkey' : Reader.string ⟨buf ++ t, 0⟩ = some (key, r₁.extend t) := Reader.stable_string t hkey
  rw [decode_of_reads hkey' (Reader.stable_int 8 t hsecs), Reader.stable_response t hresponse]
  exact h

/-! ## Truncated files -/

theorem Reader.pos_le_of_response {r r' : Reader} {response : CachedResponse}
    (h : r.response = some (response, r')) : r'.pos ≤ r'.buf.length := by
  obtain ⟨⟨status, r₁⟩, -, h⟩ := Option.bind_eq_some_iff.1 h
  obtain ⟨⟨count, r₂⟩, -, h⟩ := Option.bind_eq_some_iff.1 h
  obtain ⟨⟨hs, r₃⟩, -, h⟩ := Option.bind_eq_some_iff.1 h
  obtain ⟨⟨len, r₄⟩, -, h⟩ := Option.bind_eq_some_iff.1 h
  obtain ⟨⟨body, r₅⟩, hbody, h⟩ := Option.bind_eq_some_iff.1 h
  cases h
  obtain ⟨-, hinside, -, rfl⟩ := Reader.take_eq_some.1 hbody
  exact hinside

/-- **A strict prefix of an encoding is not decoded.** -/
theorem decode_of_strictPrefix {key : Str} {response : CachedResponse} (hf : Fits key response) {expiry : SystemTime}
    {p t : Bytes} (hp : p ++ t = encode key expiry response) (ht : t ≠ []) : decode p = .ok none := by
  obtain ⟨r₁, r₂, r₃, hkey, hsecs, hresponse, hend⟩ := reads_encode hf expiry
  rcases decode_cases p with hnone | ⟨key', secs, s₁, s₂, hkey', hsecs'⟩
  · exact hnone
  · -- what is read of the prefix is what is read of the whole encoding
    have hkey₁ := Reader.stable_string t hkey'
    have hstart : Reader.extend ⟨p, 0⟩ t = ⟨encode key expiry response, 0⟩ := by rw [Reader.extend, hp]
    rw [hstart, hkey] at hkey₁
    cases hkey₁
    have hsecs₁ := hsecs.symm.trans (Reader.stable_int 8 t hsecs')
    cases hsecs₁
    rw [decode_of_reads hkey' hsecs', SystemTime.add_epoch_unixSecs]
    cases hres : s₂.response with
    | none => rfl
    | some q =>
      exfalso
      have hres₁ := Reader.stable_response t hres
      rw [hresponse] at hres₁
      cases hres₁
      have hinside := Reader.pos_le_of_response hres
      have hall : (q.2.buf ++ t).length ≤ q.2.pos := List.drop_eq_nil_iff.1 hend.rest
      rw [List.length_append] at hall
      exact ht (List.length_eq_zero_iff.1 (by omega))

/-- **The round trip of an entry's file**: whatever bytes follow an encoding, it decodes to the entry, its expiry cut
to whole seconds. -/
theorem decode_encode_trailing {key : Str} {response : CachedResponse} (hf : Fits key response) {expiry : SystemTime}
    (hepoch : 0 ≤ expiry.nanos) (t : Bytes) :
    decode (encode key expiry response ++ t) = .ok (some (key, expiry.truncSecs, response)) ∧
      expiry.truncSecs.nanos = expiry.nanos / nanosPerSec * nanosPerSec :=
  ⟨decode_append (decode_encode hf expiry) t, SystemTime.truncSecs_nanos hepoch⟩

/-- A page with a repeated header, an empty value and a two-byte character. -/
def page : CachedResponse :=
  ⟨200, [("content-type".toList, "text/plain".toList), ("link".toList, "é".toList), ("link".toList, [])], [1, 2]⟩

theorem page_fits : Fits ['k'] page :=
  ⟨by decide, by decide, by simp [page, Utf8.encode, String.utf8EncodeChar], by decide⟩

/-- A quarter of a second past the first second. -/
def soon : SystemTime := ⟨1250000000, by decide, by decide⟩

theorem page_decode_trailing :
    decode (encode ['k'] soon page ++ [0xFF]) = .ok (some (['k'], soon.truncSecs, page)) ∧
      soon.truncSecs.nanos = soon.nanos / nanosPerSec * nanosPerSec :=
  decode_encode_trailing page_fits (by decide) [0xFF]

/-- **The decoder accepts nothing but encodings**: a decoded entry whose strings are well-formed is an encoding the
file starts with, and a file cut anywhere inside an encoding is not decoded, so it is never served. -/
theorem decoder_accepts_encodings (key : Str) (expiry : SystemTime) (response : CachedResponse) :
    (∀ buf, decode buf = .ok (some (key, expiry, response)) → (∀ b ∈ stringsRead buf, Utf8.Valid b) →
      encode key expiry response <+: buf) ∧
    (Fits key response → ∀ p, p <+: encode key expiry response → p ≠ encode key expiry response →
      decode p = .ok none ∧
      ∀ (hash : Str → UInt64) (d : DiskStore) (asked : Str) (modified : SystemTime),
        d.dir.lookup (DiskStore.path hash asked) = some ⟨modified, p⟩ → d.get hash asked = .ok none) := by
  refine ⟨fun buf h hvalid => encode_isPrefix_of_decode h hvalid, fun hf p hprefix hne => ?_⟩
  obtain ⟨t, ht⟩ := hprefix
  have hcut : t ≠ [] := by
    rintro rfl
    exact hne (by rw [← ht, List.append_nil])
  have hnone := decode_of_strictPrefix hf ht hcut
  refine ⟨hnone, fun hash d asked modified hfile => ?_⟩
  simp only [DiskStore.get, hfile, hnone]
  rfl

theorem page_accepted_whole_only :
    encode ['k'] soon.truncSecs page <+: encode ['k'] soon page ++ [0xFF] ∧
      decode ((encode ['k'] soon page).take 20) = .ok none :=
  ⟨(decoder_accepts_encodings ['k'] soon.truncSecs page).1 _ page_decode_trailing.1 (by
      have hstrings : stringsRead (encode ['k'] soon page ++ [0xFF]) =
          [Utf8.encode ['k'], Utf8.encode "content-type".toList, Utf8.encode "text/plain".toList,
            Utf8.encode "link".toList, Utf8.encode "é".toList, Utf8.encode "link".toList, Utf8.encode []] := by decide
      rw [hstrings]
      simp only [List.forall_mem_cons]
      exact ⟨⟨_, rfl⟩, ⟨_, rfl⟩, ⟨_, rfl⟩, ⟨_, rfl⟩, ⟨_, rfl⟩, ⟨_, rfl⟩, ⟨_, rfl⟩, fun b hb => by cases hb⟩),
    ((decoder_accepts_encodings ['k'] soon page).2 page_fits _ (List.take_prefix 20 _) (by decide)).1⟩

end Codec
end Zaphyl
