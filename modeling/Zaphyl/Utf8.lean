import Zaphyl.Text
/-!
# Utf8 — the UTF-8 encoding of a string slice, and its lossy reading

`encode` is the encoding of a slice; `lossy` reads any bytes, with one `U+FFFD` for each maximal subpart of an
ill-formed sequence.  Reading an encoding back is exact (`lossy_encode`).
-/
abbrev Bytes := List UInt8

namespace Utf8

def encode (s : Str) : Bytes := s.flatMap String.utf8EncodeChar

def isCont (b : UInt8) : Bool := 0x80 ≤ b && b ≤ 0xBF

/-- The second bytes a lead byte of three or four allows. -/
def secondOk (lead b : UInt8) : Bool :=
  if lead = 0xE0 then 0xA0 ≤ b && b ≤ 0xBF
  else if lead = 0xED then 0x80 ≤ b && b ≤ 0x9F
  else if lead = 0xF0 then 0x90 ≤ b && b ≤ 0xBF
  else if lead = 0xF4 then 0x80 ≤ b && b ≤ 0x8F
  else isCont b

/-- How many bytes of an ill-formed start one replacement character stands for: the longest start of a well-formed
sequence, and at least one byte. -/
def subpart : Bytes → Nat
  | lead :: second :: rest =>
    if 0xE0 ≤ lead && lead ≤ 0xEF && secondOk lead second then 2
    else if 0xF0 ≤ lead && lead ≤ 0xF4 && secondOk lead second then
      if (rest.head?.map isCont).getD false then 3 else 2
    else 1
  | _ => 1

/-- The first character of a byte string and the bytes it takes; `U+FFFD` where the start is ill-formed. -/
def next (bs : Bytes) : Char × Nat :=
  match bs.toByteArray.utf8DecodeChar? 0 with
  | some c => (c, c.utf8Size)
  | none => ('\uFFFD', subpart bs)

def lossyGo : Nat → Bytes → Str
  | 0, _ => []
  | _ + 1, [] => []
  | fuel + 1, bs => (next bs).1 :: lossyGo fuel (bs.drop (next bs).2)

/-- Read a byte string, replacing what is ill-formed.  Every character takes a byte, so the length is fuel enough. -/
def lossy (bs : Bytes) : Str := lossyGo bs.length bs

@[simp] theorem encode_cons (c : Char) (s : Str) : encode (c :: s) = String.utf8EncodeChar c ++ encode s := by
  simp [encode]

theorem next_encode_append (c : Char) (bs : Bytes) : next (String.utf8EncodeChar c ++ bs) = (c, c.utf8Size) := by
  unfold next
  rw [List.toByteArray_append, ByteArray.utf8DecodeChar?_utf8EncodeChar_append]

theorem lossyGo_encode : ∀ (s : Str) (fuel : Nat), (encode s).length ≤ fuel → lossyGo fuel (encode s) = s
  | [], fuel, _ => by cases fuel <;> rfl
  | c :: s, fuel, h => by
    rw [encode_cons, List.length_append, String.length_utf8EncodeChar] at h
    have hpos := c.utf8Size_pos
    obtain ⟨fuel, rfl⟩ : ∃ n, fuel = n + 1 := ⟨fuel - 1, by omega⟩
    obtain ⟨b, bs, hb⟩ := List.exists_cons_of_ne_nil (String.utf8EncodeChar_ne_nil (c := c))
    have hunfold : lossyGo (fuel + 1) (encode (c :: s)) =
        (next (encode (c :: s))).1 :: lossyGo fuel ((encode (c :: s)).drop (next (encode (c :: s))).2) := by
      rw [encode_cons, hb]; rfl
    rw [hunfold, encode_cons, next_encode_append]
    simp only
    rw [List.drop_left' (String.length_utf8EncodeChar c), lossyGo_encode s fuel (by omega)]

/-- **Reading an encoding is exact.** -/
@[simp] theorem lossy_encode (s : Str) : lossy (encode s) = s := lossyGo_encode s _ (Nat.le_refl _)

/-- A well-formed byte string is the encoding of a text. -/
def Valid (bs : Bytes) : Prop := ∃ s : Str, encode s = bs

theorem encode_lossy {bs : Bytes} (h : Valid bs) : encode (lossy bs) = bs := by
  obtain ⟨s, rfl⟩ := h
  rw [lossy_encode]

example : lossy [0x61, 0xE2, 0x82, 0x62, 0xFF] = ['a', '\uFFFD', 'b', '\uFFFD'] := by decide

/-! ## ASCII bytes -/

theorem mem_encode {b : UInt8} {s : Str} : b ∈ encode s ↔ ∃ c ∈ s, b ∈ String.utf8EncodeChar c := List.mem_flatMap

/-- A byte below 128 of a character's encoding is the character. -/
theorem toNat_of_mem_encodeChar {c : Char} {b : UInt8} (hb : b.toNat < 128) (h : b ∈ String.utf8EncodeChar c) :
    c.toNat = b.toNat := by
  -- the bytes of a longer encoding are all larger
  have hlarge : ∀ n, 128 ≤ n → n < 256 → b ≠ UInt8.ofNat n := by
    rintro n hn hn' rfl
    rw [UInt8.toNat_ofNat'] at hb
    omega
  unfold String.utf8EncodeChar at h
  simp only at h
  split at h
  · rename_i hascii
    show c.val.toNat = b.toNat
    rw [List.mem_singleton.1 h, UInt8.toNat_ofNat']
    omega
  · exfalso
    split at h
    · simp only [List.mem_cons, List.not_mem_nil, or_false] at h
      obtain h | h := h
      · exact hlarge _ (by omega) (by omega) h
      · exact hlarge _ (by omega) (by omega) h
    · split at h
      · simp only [List.mem_cons, List.not_mem_nil, or_false] at h
        obtain h | h | h := h
        · exact hlarge _ (by omega) (by omega) h
        · exact hlarge _ (by omega) (by omega) h
        · exact hlarge _ (by omega) (by omega) h
      · simp only [List.mem_cons, List.not_mem_nil, or_false] at h
        obtain h | h | h | h := h
        · exact hlarge _ (by omega) (by omega) h
        · exact hlarge _ (by omega) (by omega) h
        · exact hlarge _ (by omega) (by omega) h
        · exact hlarge _ (by omega) (by omega) h

/-- **An ASCII byte is in an encoding exactly when its character is in the text.** -/
theorem ascii_mem_encode {c : Char} (hc : c.toNat < 128) (s : Str) : UInt8.ofNat c.toNat ∈ encode s ↔ c ∈ s := by
  have hbyte : (UInt8.ofNat c.toNat).toNat = c.toNat := by
    rw [UInt8.toNat_ofNat']
    omega
  rw [mem_encode]
  constructor
  · rintro ⟨d, hd, hmem⟩
    have hsame := toNat_of_mem_encodeChar (by rw [hbyte]; exact hc) hmem
    rw [hbyte] at hsame
    rwa [← Char.toNat_inj.1 hsame]
  · intro h
    refine ⟨c, h, ?_⟩
    unfold String.utf8EncodeChar
    simp only
    rw [if_pos (show c.val.toNat ≤ 127 from Nat.le_of_lt_succ hc)]
    exact List.mem_singleton.2 rfl

end Utf8
