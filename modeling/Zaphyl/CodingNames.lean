import Zaphyl.ContentCoding
/-!
# CodingNames — the canonical form of `Accept-Encoding` is the set it lists

The key keeps of an `Accept-Encoding` value the set of coding names it lists: two values have one canonical form
exactly when they list one set, so order, repetition, case, blanks and parameters change nothing, and the canonical
form is its own.
-/
namespace Zaphyl

open Text (trim before join asciiLower isWhitespace)

/-- The coding names an optional `Accept-Encoding` value lists: what stands before the first `;` of a member, trimmed
and lowered, where anything does. -/
def codingNames (acceptEncoding : Option Str) : Set Str :=
  {name | name ≠ [] ∧ ∃ value ∈ acceptEncoding, ∃ member ∈ value.splitOn ',',
    asciiLower (trim (before ';' member)) = name}

/-- A member as a client may write it: a name, blanks on either side, and the parameters after it. -/
structure CodingMember where
  blanksBefore : Str
  name : Str
  blanksAfter : Str
  params : Str
  before_blank : ∀ c ∈ blanksBefore, isWhitespace c = true
  after_blank : ∀ c ∈ blanksAfter, isWhitespace c = true
  name_plain : ',' ∉ name ∧ ';' ∉ name
  params_plain : ',' ∉ params ∧ (params = [] ∨ ∃ p, params = ';' :: p)

def CodingMember.text (m : CodingMember) : Str := m.blanksBefore ++ m.name ++ m.blanksAfter ++ m.params

/-! ## The tokens of a value are the names it lists -/

theorem mem_codingNames_iff {ae : Option Str} {t : Str} : t ∈ codingNames ae ↔ t ∈ acceptTokens ae := by
  rw [mem_acceptTokens]
  show (t ≠ [] ∧ _) ↔ _
  refine and_congr_right (fun hne => ?_)
  cases ae with
  | some value => simp
  | none =>
    -- no header lists what an empty one does: its one member is empty
    refine iff_of_false (by simp) (fun h => ?_)
    obtain ⟨member, hm, ht⟩ := h
    have hempty : member = [] := by simpa [List.splitOn] using hm
    subst hempty
    exact hne ht.symm

theorem codingNames_eq_iff (a b : Option Str) :
    codingNames a = codingNames b ↔ normalizeAcceptEncoding a = normalizeAcceptEncoding b := by
  rw [normalizeAcceptEncoding_eq_iff, Set.ext_iff]
  exact forall_congr' (fun t => by rw [mem_codingNames_iff, mem_codingNames_iff])

/-! ## What a value may vary -/

theorem codingNames_join (ps : List Str) :
    codingNames (some (join ',' ps)) =
      {name | name ≠ [] ∧ ∃ p ∈ ps, ∃ member ∈ p.splitOn ',', asciiLower (trim (before ';' member)) = name} := by
  ext t
  show (t ≠ [] ∧ _) ↔ (t ≠ [] ∧ _)
  refine and_congr_right (fun hne => ?_)
  by_cases hps : ps = []
  · subst hps
    refine iff_of_false (fun h => ?_) (by simp)
    obtain ⟨value, hv, member, hm, ht⟩ := h
    cases hv
    have hempty : member = [] := by simpa [List.splitOn, join] using hm
    subst hempty
    exact hne ht.symm
  · have hsplit := @Text.splitOn_join ',' ps hps
    constructor
    · rintro ⟨value, hv, member, hm, ht⟩
      cases hv
      rw [hsplit, List.mem_flatMap] at hm
      obtain ⟨p, hp, hm⟩ := hm
      exact ⟨p, hp, member, hm, ht⟩
    · rintro ⟨p, hp, member, hm, ht⟩
      refine ⟨_, rfl, member, ?_, ht⟩
      rw [hsplit, List.mem_flatMap]
      exact ⟨p, hp, hm⟩

theorem codingNames_asciiLower (v : Str) : codingNames (some (asciiLower v)) = codingNames (some v) := by
  ext t
  show (t ≠ [] ∧ _) ↔ (t ≠ [] ∧ _)
  refine and_congr_right (fun _ => ?_)
  have hname : ∀ member, asciiLower (trim (before ';' (asciiLower member))) =
      asciiLower (trim (before ';' member)) := by
    intro member
    rw [Text.before_asciiLower (by decide) (by decide), Text.trim_asciiLower, Text.asciiLower_asciiLower]
  simp only [Option.mem_def, Option.some.injEq, exists_eq_left', @Text.splitOn_asciiLower ',' (by decide)
    (by decide), List.mem_map, exists_exists_and_eq_and, hname]

theorem CodingMember.comma_not_mem_text (m : CodingMember) : ',' ∉ m.text := by
  have hblank := @Text.not_mem_of_blank ',' (by decide)
  unfold CodingMember.text
  simp only [List.mem_append, not_or]
  exact ⟨⟨⟨hblank m.before_blank, m.name_plain.1⟩, hblank m.after_blank⟩, m.params_plain.1⟩

/-- **A member names its coding**, whatever blanks and parameters it has. -/
theorem CodingMember.trim_before_text (m : CodingMember) : trim (before ';' m.text) = trim (before ';' m.name) := by
  have hblank := @Text.not_mem_of_blank ';' (by decide)
  have hfree : ';' ∉ m.blanksBefore ++ m.name ++ m.blanksAfter := by
    simp only [List.mem_append, not_or]
    exact ⟨⟨hblank m.before_blank, m.name_plain.2⟩, hblank m.after_blank⟩
  have hbefore : before ';' m.text = m.blanksBefore ++ m.name ++ m.blanksAfter := by
    unfold CodingMember.text
    rcases m.params_plain.2 with h | ⟨p, h⟩
    · rw [h, List.append_nil, Text.before_of_not_mem hfree]
    · rw [h, Text.before_append_cons hfree]
  rw [hbefore, Text.before_of_not_mem m.name_plain.2, Text.trim_append_right m.after_blank,
    Text.trim_append_left m.before_blank]

theorem codingNames_members (ms : List CodingMember) :
    codingNames (some (join ',' (ms.map CodingMember.text))) =
      codingNames (some (join ',' (ms.map CodingMember.name))) := by
  rw [codingNames_join, codingNames_join]
  ext t
  show (t ≠ [] ∧ _) ↔ (t ≠ [] ∧ _)
  refine and_congr_right (fun _ => ?_)
  simp only [List.mem_map, exists_exists_and_eq_and]
  refine exists_congr (fun m => and_congr_right (fun _ => ?_))
  rw [List.splitOn_eq_singleton m.comma_not_mem_text, List.splitOn_eq_singleton m.name_plain.1]
  simp only [List.mem_singleton, exists_eq_left, m.trim_before_text]

theorem codingNames_normalize (a : Option Str) : codingNames (some (normalizeAcceptEncoding a)) = codingNames a := by
  unfold normalizeAcceptEncoding
  rw [codingNames_join]
  ext t
  rw [mem_codingNames_iff]
  -- a token is its own only member, lower case and trimmed already
  have hown : ∀ {token}, token ∈ acceptTokens a → token.splitOn ',' = [token] ∧
      asciiLower (trim (before ';' token)) = token := fun htoken =>
    ⟨List.splitOn_eq_singleton (comma_not_mem_acceptTokens htoken), by
      rw [Text.before_of_not_mem (semicolon_not_mem_acceptTokens htoken), trim_of_mem_acceptTokens htoken,
        asciiLower_of_mem_acceptTokens htoken]⟩
  constructor
  · rintro ⟨-, token, hcanon, member, hm, rfl⟩
    have htoken := Text.mem_canon.1 hcanon
    rw [(hown htoken).1, List.mem_singleton] at hm
    subst hm
    rwa [(hown htoken).2]
  · intro ht
    refine ⟨(mem_acceptTokens.1 ht).1, t, Text.mem_canon.2 ht, t, ?_, (hown ht).2⟩
    rw [(hown ht).1]
    exact List.mem_singleton_self t

/-- **The canonical form of `Accept-Encoding` is the set of names the value lists**: two values share it exactly when
they list one set.  It is the same under reordering and repeating members, under letter case, blanks and parameters,
and it is its own canonical form. -/
theorem normalizeAcceptEncoding_canonical (a b : Option Str) :
    (normalizeAcceptEncoding a = normalizeAcceptEncoding b ↔ codingNames a = codingNames b) ∧
    (∀ ps qs : List Str, (∀ p, p ∈ ps ↔ p ∈ qs) →
      normalizeAcceptEncoding (some (join ',' ps)) = normalizeAcceptEncoding (some (join ',' qs))) ∧
    (∀ v w : Str, asciiLower v = asciiLower w →
      normalizeAcceptEncoding (some v) = normalizeAcceptEncoding (some w)) ∧
    (∀ ms : List CodingMember, normalizeAcceptEncoding (some (join ',' (ms.map CodingMember.text))) =
      normalizeAcceptEncoding (some (join ',' (ms.map CodingMember.name)))) ∧
    normalizeAcceptEncoding (some (normalizeAcceptEncoding a)) = normalizeAcceptEncoding a := by
  refine ⟨(codingNames_eq_iff a b).symm, fun ps qs h => ?_, fun v w h => ?_, fun ms => ?_, ?_⟩
  · rw [← codingNames_eq_iff, codingNames_join, codingNames_join]
    simp only [h]
  · rw [← codingNames_eq_iff, ← codingNames_asciiLower v, h, codingNames_asciiLower]
  · rw [← codingNames_eq_iff]
    exact codingNames_members ms
  · rw [← codingNames_eq_iff]
    exact codingNames_normalize a

end Zaphyl
