import Zaphyl.Multimap
import Zaphyl.Pipelines
/-!
# HeaderLines — header maps by name

A header map is a multimap of its lines: inserting a header sets its line, appending adds one, and removing a name
drops its lines.  A route's headers are inserted where an invalid one is left out (`lines_foldl_insertHeader`) and
appended where an invalid one fails the request (`foldlM_addHeader_eq_some_iff`).
-/
namespace Zaphyl

namespace HeaderMap

def values (m : HeaderMap) (n : HeaderName) : List HeaderValue := Multimap.valuesAt n m.lines

theorem insertLines_eq_set (n : HeaderName) (v : HeaderValue) : ∀ ls : List (HeaderName × HeaderValue),
    insertLines n v ls = Multimap.set n v ls
  | [] => rfl
  | l :: ls => by
    rw [insertLines, Multimap.set, insertLines_eq_set n v ls]
    rfl

theorem appendLines_eq_add (n : HeaderName) (v : HeaderValue) : ∀ ls : List (HeaderName × HeaderValue),
    appendLines n v ls = Multimap.add n v ls
  | [] => rfl
  | l :: ls => by
    rw [appendLines, Multimap.add, appendLines_eq_add n v ls]

theorem lines_insert (m : HeaderMap) (n : HeaderName) (v : HeaderValue) :
    (m.insert n v).lines = Multimap.set n v m.lines := insertLines_eq_set n v m.lines

theorem lines_append (m : HeaderMap) (n : HeaderName) (v : HeaderValue) :
    (m.append n v).lines = Multimap.add n v m.lines := appendLines_eq_add n v m.lines

theorem lines_remove (m : HeaderMap) (n : HeaderName) : (m.remove n).lines = Multimap.drop n m.lines := rfl

variable (m : HeaderMap) {n k : HeaderName} (v : HeaderValue)

@[simp] theorem values_insert_self : (m.insert n v).values n = [v] := by
  rw [values, lines_insert, Multimap.valuesAt_set_self]

theorem values_insert_ne (h : k ≠ n) : (m.insert k v).values n = m.values n := by
  rw [values, lines_insert, Multimap.valuesAt_set_ne h]
  rfl

theorem values_append_self : ((m.append n v).values n).Perm (v :: m.values n) := by
  rw [values, lines_append]
  exact Multimap.valuesAt_add_self n v m.lines

theorem values_append_ne (h : k ≠ n) : (m.append k v).values n = m.values n := by
  rw [values, lines_append, Multimap.valuesAt_add_ne h]
  rfl

@[simp] theorem values_remove_self : (m.remove n).values n = [] := Multimap.valuesAt_drop_self n m.lines

theorem values_remove_ne (h : k ≠ n) : (m.remove k).values n = m.values n := Multimap.valuesAt_drop_ne h m.lines

/-- `get` gives the first value of a name. -/
theorem get_eq_head? (n : HeaderName) : m.get n = (m.values n).head? := by
  unfold get values Multimap.valuesAt Multimap.linesAt
  rw [List.head?_map, List.head?_filter]

theorem containsKey_iff_values (n : HeaderName) : m.containsKey n = true ↔ m.values n ≠ [] := by
  rw [containsKey_iff_get, get_eq_head?, List.isSome_head?]

end HeaderMap

/-! ## The text of a value -/

theorem encode_ascii {bs : Bytes} (h : ∀ b ∈ bs, b.toNat < 128) :
    Utf8.encode (bs.map (fun b => Char.ofNat b.toNat)) = bs := by
  induction bs with
  | nil => rfl
  | cons b bs ih =>
    have hlt := h b List.mem_cons_self
    have hvalid : b.toNat.isValidChar := Or.inl (by omega)
    have hval : (Char.ofNat b.toNat).val.toNat = b.toNat := by
      unfold Char.ofNat
      rw [dif_pos hvalid]
      rfl
    have hchar : String.utf8EncodeChar (Char.ofNat b.toNat) = [b] := by
      unfold String.utf8EncodeChar
      simp only [hval]
      rw [if_pos (by omega), UInt8.ofNat_toNat]
    rw [List.map_cons, Utf8.encode_cons, hchar, ih (fun c hc => h c (List.mem_cons_of_mem _ hc)), List.singleton_append]

namespace HeaderValue

/-- The value as the peer that gets it reads it. -/
def text (v : HeaderValue) : Str := Utf8.lossy v.bytes

theorem text_of_ofStr {s : Str} {v : HeaderValue} (h : ofStr s = some v) : v.text = s := by
  unfold ofStr at h
  split at h
  · rw [← Option.some.inj h]
    exact Utf8.lossy_encode s
  · cases h

/-- A text of visible characters is a value. -/
theorem exists_ofStr {s : Str} (h : ∀ c ∈ s, 32 ≤ c.toNat ∧ c.toNat < 127) : ∃ v, ofStr s = some v := by
  have hall : (Utf8.encode s).all isValueByte = true := by
    induction s with
    | nil => rfl
    | cons c s ih =>
      obtain ⟨hlow, hhigh⟩ := h c List.mem_cons_self
      have hchar : String.utf8EncodeChar c = [UInt8.ofNat c.toNat] := by
        unfold String.utf8EncodeChar
        simp only
        rw [if_pos (show c.val.toNat ≤ 127 from Nat.le_of_lt hhigh)]
        rfl
      have hbyte : (UInt8.ofNat c.toNat).toNat = c.toNat := by
        rw [UInt8.toNat_ofNat']
        omega
      have hvalid : isValueByte (UInt8.ofNat c.toNat) = true := by
        simp only [isValueByte, Bool.or_eq_true, Bool.and_eq_true, decide_eq_true_eq, UInt8.le_iff_toNat_le, ne_eq,
          ← UInt8.toNat_inj, hbyte]
        exact Or.inl ⟨hlow, fun h => by
          have h127 : c.toNat = 127 := h
          omega⟩
      rw [Utf8.encode_cons, hchar, List.singleton_append, List.all_cons, hvalid, Bool.true_and]
      exact ih (fun d hd => h d (List.mem_cons_of_mem _ hd))
  exact ⟨⟨_, hall⟩, by rw [ofStr, dif_pos hall]⟩

/-- A visible value has the bytes of its text. -/
theorem bytes_of_toStr {s : Str} {v : HeaderValue} (h : v.toStr = some s) : v.bytes = Utf8.encode s := by
  unfold toStr at h
  split at h
  · rename_i hvisible
    have hascii : ∀ b ∈ v.bytes, b.toNat < 128 := by
      intro b hb
      have hv := List.all_eq_true.1 hvisible b hb
      simp only [isVisible, Bool.or_eq_true, Bool.and_eq_true, decide_eq_true_eq, UInt8.lt_iff_toNat_lt,
        ← UInt8.toNat_inj] at hv
      rcases hv with ⟨-, hlt⟩ | htab
      · exact Nat.lt_of_lt_of_le hlt (by decide)
      · rw [htab]
        decide
    rw [← Option.some.inj h]
    exact (encode_ascii hascii).symm
  · cases h

theorem text_of_toStr {s : Str} {v : HeaderValue} (h : v.toStr = some s) : v.text = s := by
  rw [text, bytes_of_toStr h, Utf8.lossy_encode]

end HeaderValue

/-! ## The headers a route configures -/

theorem parse_eq_some_iff {name : Str} {n : HeaderName} : HeaderName.parse name = some n ↔
    Text.asciiLower name = n.text := by
  unfold HeaderName.parse
  constructor
  · intro h
    split at h
    · rw [← Option.some.inj h]
    · cases h
  · intro h
    have hwf : Text.asciiLower name ≠ [] ∧ (Text.asciiLower name).all isNameChar = true := by
      rw [h]
      exact n.wf
    rw [dif_pos hwf]
    exact congrArg some (HeaderName.text_inj.1 h)

/-- The header line of a configured name and value, when both are valid. -/
def validLine (h : Str × Str) : Option (HeaderName × HeaderValue) :=
  match HeaderName.parse h.1, HeaderValue.ofStr h.2 with
  | some name, some value => some (name, value)
  | _, _ => none

theorem validLine_eq_some_iff {h : Str × Str} {name : HeaderName} {value : HeaderValue} :
    validLine h = some (name, value) ↔ HeaderName.parse h.1 = some name ∧ HeaderValue.ofStr h.2 = some value := by
  unfold validLine
  cases HeaderName.parse h.1 with
  | none => simp
  | some n =>
    cases HeaderValue.ofStr h.2 with
    | none => simp
    | some v => simp

theorem insertHeader_eq (m : HeaderMap) (h : Str × Str) :
    insertHeader m h = (validLine h).elim m (fun l => m.insert l.1 l.2) := by
  unfold insertHeader validLine
  cases HeaderName.parse h.1 with
  | none => rfl
  | some n =>
    cases HeaderValue.ofStr h.2 with
    | none => rfl
    | some v => rfl

theorem addHeader_eq (m : HeaderMap) (h : Str × Str) :
    addHeader m h = (validLine h).map (fun l => m.append l.1 l.2) := by
  unfold addHeader validLine
  cases HeaderName.parse h.1 with
  | none => rfl
  | some n =>
    cases HeaderValue.ofStr h.2 with
    | none => rfl
    | some v => rfl

/-- **Inserting headers sets the lines of the valid ones.** -/
theorem lines_foldl_insertHeader (hs : List (Str × Str)) (m : HeaderMap) :
    (hs.foldl insertHeader m).lines = Multimap.setAll (hs.filterMap validLine) m.lines := by
  induction hs generalizing m with
  | nil => rfl
  | cons h hs ih =>
    rw [List.foldl_cons, ih, insertHeader_eq]
    cases hline : validLine h with
    | none => rw [List.filterMap_cons_none hline, Option.elim_none]
    | some l =>
      rw [List.filterMap_cons_some hline, Option.elim_some, HeaderMap.lines_insert]
      rfl

/-- **Appending headers adds the lines of all of them**, when all are valid. -/
theorem foldlM_addHeader_eq_some_iff {hs : List (Str × Str)} : ∀ {m m' : HeaderMap},
    hs.foldlM addHeader m = some m' ↔
      (∀ h ∈ hs, validLine h ≠ none) ∧ m' = ⟨Multimap.addAll (hs.filterMap validLine) m.lines⟩ := by
  induction hs with
  | nil =>
    intro m m'
    rw [List.foldlM_nil, Option.pure_def, Option.some.injEq]
    constructor
    · rintro rfl
      exact ⟨fun h hh => (List.not_mem_nil hh).elim, rfl⟩
    · rintro ⟨-, rfl⟩
      rfl
  | cons h hs ih =>
    intro m m'
    rw [List.foldlM_cons, Option.bind_eq_bind, addHeader_eq, List.forall_mem_cons]
    cases hline : validLine h with
    | none => simp
    | some l =>
      have hadded : (m.append l.1 l.2).lines = Multimap.add l.1 l.2 m.lines := m.lines_append l.1 l.2
      rw [Option.map_some, Option.bind_some, ih, List.filterMap_cons_some hline, hadded]
      simp [Multimap.addAll]

/-- Every line of an appended map was there, or is a configured header's. -/
theorem name_of_mem_foldlM_addHeader {hs : List (Str × Str)} {m m' : HeaderMap} (h : hs.foldlM addHeader m = some m')
    {l : HeaderName × HeaderValue} (hl : l ∈ m'.lines) : l ∈ m.lines ∨ ∃ x ∈ hs, HeaderName.parse x.1 = some l.1 := by
  obtain ⟨-, rfl⟩ := foldlM_addHeader_eq_some_iff.1 h
  have hvalue : l.2 ∈ Multimap.valuesAt l.1 (Multimap.addAll (hs.filterMap validLine) m.lines) := Multimap.mem_valuesAt.2 hl
  rcases List.mem_append.1 ((Multimap.valuesAt_addAll l.1 _ _).subset hvalue) with hadded | hkept
  · obtain ⟨x, hx, hline⟩ := List.mem_filterMap.1 (Multimap.mem_valuesAt.1 hadded)
    exact Or.inr ⟨x, hx, (validLine_eq_some_iff.1 hline).1⟩
  · exact Or.inl (Multimap.mem_valuesAt.1 hkept)

end Zaphyl
