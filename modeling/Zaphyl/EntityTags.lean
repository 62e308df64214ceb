import Zaphyl.CachePolicy
/-!
# EntityTags — If-None-Match against an entity tag

An entity tag is a quoted text, which may hold commas, behind an optional mark of weakness; `If-None-Match` is `*` or a
list of tags.  The list is cut at every comma, so a tag with a comma is never found in it: the header decides membership
exactly where no such tag is looked for among its own (`decides_membership_iff`).
-/
namespace Zaphyl

open Text (trim join)

/-- A character of an opaque tag: visible but the quote, or beyond ASCII. -/
def isEtagChar (c : Char) : Bool := c.toNat == 0x21 || (0x23 ≤ c.toNat && c.toNat ≤ 0x7E) || 0x80 ≤ c.toNat

structure EntityTag where
  weak : Bool
  opaqueTag : Str
  wf : opaqueTag.all isEtagChar = true

def quoted (s : Str) : Str := '"' :: (s ++ ['"'])

namespace EntityTag

def text (e : EntityTag) : Str := if e.weak then "W/".toList ++ quoted e.opaqueTag else quoted e.opaqueTag

theorem quote_not_mem (e : EntityTag) : '"' ∉ e.opaqueTag := fun h => by
  have hchar := List.all_eq_true.1 e.wf _ h
  revert hchar
  decide

end EntityTag

/-- A tag of a list, with the blanks around it. -/
structure ListedTag where
  left : Str
  tag : EntityTag
  right : Str
  blanks : ∀ c ∈ left ++ right, c = ' ' ∨ c = '\t'

def ListedTag.text (m : ListedTag) : Str := m.left ++ (m.tag.text ++ m.right)

/-- A well-formed `If-None-Match`. -/
inductive IfNoneMatch
  | any
  | tags (first : ListedTag) (rest : List ListedTag)

namespace IfNoneMatch

def listed : IfNoneMatch → List ListedTag
  | any => []
  | tags first rest => first :: rest

def text : IfNoneMatch → Str
  | any => ['*']
  | tags first rest => join ',' ((first :: rest).map ListedTag.text)

/-- Some tag of the list has the opaque part of `e`. -/
def Lists (v : IfNoneMatch) (e : EntityTag) : Prop := ∃ m ∈ v.listed, m.tag.opaqueTag = e.opaqueTag

end IfNoneMatch

/-! ## What stripping leaves -/

theorem trim_quoted (s : Str) : trim (quoted s) = quoted s := by
  have hstart : Text.trimStart (quoted s) = quoted s := Text.trimStart_cons_self (by decide) _
  unfold Text.trim
  rw [hstart]
  exact Text.trimEnd_append_singleton (by decide) ('"' :: s)

theorem trim_text (e : EntityTag) : trim e.text = e.text := by
  unfold EntityTag.text
  cases e.weak with
  | false => exact trim_quoted _
  | true =>
    have hstart : Text.trimStart ("W/".toList ++ quoted e.opaqueTag) = "W/".toList ++ quoted e.opaqueTag :=
      Text.trimStart_cons_self (by decide) _
    unfold Text.trim
    rw [if_pos rfl, hstart]
    exact Text.trimEnd_append_singleton (by decide) ("W/".toList ++ '"' :: e.opaqueTag)

/-- **A tag without its mark is its quoted text.** -/
theorem stripWeak_text (e : EntityTag) : stripWeak e.text = quoted e.opaqueTag := by
  unfold stripWeak
  rw [trim_text]
  unfold EntityTag.text
  cases e.weak with
  | false =>
    have hnone : (quoted e.opaqueTag).dropPrefix? "W/".toList = none := rfl
    rw [if_neg (by decide), hnone, Option.getD_none, trim_quoted]
  | true =>
    have hsome : ("W/".toList ++ quoted e.opaqueTag).dropPrefix? "W/".toList = some (quoted e.opaqueTag) :=
      Text.dropPrefix?_eq_some.2 rfl
    rw [if_pos rfl, hsome, Option.getD_some, trim_quoted]

theorem trim_sublist (s : Str) : (trim s).Sublist s :=
  (List.rdropWhile_prefix _ _).sublist.trans (List.dropWhile_suffix _).sublist

theorem stripWeak_sublist (s : Str) : (stripWeak s).Sublist s := by
  unfold stripWeak
  refine (trim_sublist _).trans ?_
  cases h : (trim s).dropPrefix? "W/".toList with
  | none => exact List.Sublist.refl _
  | some rest =>
    have hsplit := Text.dropPrefix?_eq_some.1 h
    have hrest : rest.Sublist (trim s) := hsplit ▸ List.sublist_append_right _ _
    exact hrest.trans (trim_sublist s)

theorem quoted_injective {s t : Str} (h : quoted s = quoted t) : s = t := by
  unfold quoted at h
  rw [List.cons.injEq] at h
  exact (List.append_left_inj _).1 h.2

/-! ## The pieces of a list -/

namespace ListedTag

variable (m : ListedTag)

theorem trim_text : trim m.text = m.tag.text := by
  have hblank : ∀ c, c = ' ' ∨ c = '\t' → Text.isWhitespace c = true := by
    rintro c (rfl | rfl) <;> decide
  unfold text
  rw [Text.trim_append_left (fun c hc => hblank c (m.blanks c (List.mem_append_left _ hc))),
    Text.trim_append_right (fun c hc => hblank c (m.blanks c (List.mem_append_right _ hc))), Zaphyl.trim_text]

/-- A tag without a comma is one piece of the list. -/
theorem splitOn_text (h : ',' ∉ m.tag.opaqueTag) : m.text.splitOn ',' = [m.text] := by
  apply List.splitOn_eq_singleton
  have hblanks : ',' ∉ m.left ++ m.right := by
    intro hc
    rcases m.blanks ',' hc with h | h
    · cases h
    · cases h
  have htag : ',' ∉ m.tag.text := by
    unfold EntityTag.text quoted
    cases m.tag.weak <;> simp [h]
  rw [List.mem_append, not_or] at hblanks
  unfold text
  rw [List.mem_append, List.mem_append]
  exact fun hc => hc.elim hblanks.1 (fun hc => hc.elim htag hblanks.2)

/-- A tag with a comma is cut into pieces with at most one quote each. -/
theorem count_quote_le (h : ',' ∈ m.tag.opaqueTag) {p : Str} (hp : p ∈ m.text.splitOn ',') : p.count '"' ≤ 1 := by
  obtain ⟨s, t, hcut, -⟩ := List.eq_append_cons_of_mem h
  have hnone : m.tag.opaqueTag.count '"' = 0 := List.count_eq_zero_of_not_mem m.tag.quote_not_mem
  have hblanks : ∀ w : Str, w ⊆ m.left ++ m.right → w.count '"' = 0 := by
    intro w hw
    apply List.count_eq_zero_of_not_mem
    intro hc
    rcases m.blanks '"' (hw hc) with h | h
    · cases h
    · cases h
  have hleft := hblanks m.left (List.subset_append_left _ _)
  have hright := hblanks m.right (List.subset_append_right _ _)
  obtain ⟨mark, htext, hmark⟩ : ∃ mark : Str, m.tag.text = mark ++ quoted m.tag.opaqueTag ∧ mark.count '"' = 0 := by
    unfold EntityTag.text
    cases m.tag.weak with
    | false => exact ⟨[], rfl, rfl⟩
    | true => exact ⟨"W/".toList, rfl, rfl⟩
  -- the comma stands between the two quotes
  have hsplit : m.text = (m.left ++ (mark ++ '"' :: s)) ++ ',' :: (t ++ '"' :: m.right) := by
    unfold text
    rw [htext, quoted, hcut]
    simp
  rw [hcut, List.count_append] at hnone
  have htail : t.count '"' = 0 := by
    rw [List.count_cons_of_ne (by decide)] at hnone
    omega
  rw [hsplit, List.splitOn_append_cons_self] at hp
  rcases List.mem_append.1 hp with hp | hp
  · have hle := (Text.sublist_of_mem_splitOn hp).count_le '"'
    rw [List.count_append, List.count_append, List.count_cons_self] at hle
    omega
  · have hle := (Text.sublist_of_mem_splitOn hp).count_le '"'
    rw [List.count_append, List.count_cons_self] at hle
    omega

end ListedTag

/-- **A piece of a listed tag matches when the tag does and has no comma.** -/
theorem exists_piece_iff (m : ListedTag) (e : EntityTag) :
    (∃ p ∈ m.text.splitOn ',', stripWeak (trim p) = quoted e.opaqueTag) ↔
      ',' ∉ m.tag.opaqueTag ∧ m.tag.opaqueTag = e.opaqueTag := by
  by_cases hcomma : ',' ∈ m.tag.opaqueTag
  · refine iff_of_false ?_ (fun h => h.1 hcomma)
    rintro ⟨p, hp, hmatch⟩
    have htwo : (quoted e.opaqueTag).count '"' = 2 := by
      rw [quoted, List.count_cons_self, List.count_append, List.count_eq_zero_of_not_mem e.quote_not_mem]
      rfl
    have hle := ((stripWeak_sublist (trim p)).trans (trim_sublist p)).count_le '"'
    have hone := m.count_quote_le hcomma hp
    rw [hmatch, htwo] at hle
    omega
  · rw [m.splitOn_text hcomma, and_iff_right hcomma]
    simp only [List.mem_singleton, exists_eq_left, m.trim_text, stripWeak_text]
    exact ⟨quoted_injective, congrArg quoted⟩

namespace IfNoneMatch

theorem trim_text_eq_star_iff (v : IfNoneMatch) : trim v.text = ['*'] ↔ v = any := by
  cases v with
  | any => exact iff_of_true (by decide) rfl
  | tags first rest =>
    refine iff_of_false (fun h => ?_) (fun h => by cases h)
    -- the first tag's quote is no blank, and so it is not trimmed
    have hquote : '"' ∈ (tags first rest).text := by
      have hfirst : '"' ∈ first.text := by
        unfold ListedTag.text EntityTag.text quoted
        cases first.tag.weak <;> simp
      exact Text.subset_join_of_mem (List.mem_map_of_mem List.mem_cons_self) hfirst
    obtain ⟨w, w', hsplit, hw, hw'⟩ := Text.exists_trim (tags first rest).text
    rw [hsplit, h, List.mem_append, List.mem_append] at hquote
    have hvisible : Text.isWhitespace '"' = false := by decide
    rcases hquote with (hc | hc) | hc
    · rw [hw _ hc] at hvisible
      cases hvisible
    · revert hc
      decide
    · rw [hw' _ hc] at hvisible
      cases hvisible

/-- **When the header is satisfied**: it is `*`, or it lists the tag and the tag has no comma. -/
theorem satisfied_iff (v : IfNoneMatch) (e : EntityTag) :
    ifNoneMatchSatisfied v.text e.text = true ↔ v = any ∨ v.Lists e ∧ ',' ∉ e.opaqueTag := by
  unfold ifNoneMatchSatisfied
  rw [Bool.or_eq_true, beq_iff_eq, trim_text_eq_star_iff, List.any_eq_true]
  simp only [beq_iff_eq, stripWeak_text]
  cases v with
  | any => simp
  | tags first rest =>
    have hpieces : (∃ p ∈ (trim (tags first rest).text).splitOn ',', stripWeak (trim p) = quoted e.opaqueTag) ↔
        ∃ p ∈ (tags first rest).text.splitOn ',', stripWeak (trim p) = quoted e.opaqueTag := by
      have hvisible : Text.isWhitespace ',' = false := by decide
      have hmap := Text.map_trim_splitOn_trim hvisible (tags first rest).text
      have hmem : ∀ q, q ∈ ((trim (tags first rest).text).splitOn ',').map trim ↔
          q ∈ ((tags first rest).text.splitOn ',').map trim := fun q => by rw [hmap]
      simp only [List.mem_map] at hmem
      constructor
      · rintro ⟨p, hp, hmatch⟩
        obtain ⟨q, hq, hqp⟩ := (hmem (trim p)).1 ⟨p, hp, rfl⟩
        exact ⟨q, hq, hqp.symm ▸ hmatch⟩
      · rintro ⟨p, hp, hmatch⟩
        obtain ⟨q, hq, hqp⟩ := (hmem (trim p)).2 ⟨p, hp, rfl⟩
        exact ⟨q, hq, hqp.symm ▸ hmatch⟩
    have hsplit : (tags first rest).text.splitOn ',' =
        ((first :: rest).map ListedTag.text).flatMap (fun p => p.splitOn ',') := Text.splitOn_join (by simp)
    rw [hpieces, hsplit]
    simp only [reduceCtorEq, false_or, List.mem_flatMap, List.mem_map, Lists, listed]
    constructor
    · rintro ⟨p, ⟨-, ⟨m, hm, rfl⟩, hp⟩, hmatch⟩
      obtain ⟨hcomma, hsame⟩ := (exists_piece_iff m e).1 ⟨p, hp, hmatch⟩
      exact ⟨⟨m, hm, hsame⟩, hsame ▸ hcomma⟩
    · rintro ⟨⟨m, hm, hsame⟩, hcomma⟩
      obtain ⟨p, hp, hmatch⟩ := (exists_piece_iff m e).2 ⟨hsame ▸ hcomma, hsame⟩
      exact ⟨p, ⟨m.text, ⟨m, hm, rfl⟩, hp⟩, hmatch⟩

/-- **The header decides weak membership exactly where it lists no such tag with a comma.** -/
theorem decides_membership_iff (v : IfNoneMatch) (e : EntityTag) :
    (ifNoneMatchSatisfied v.text e.text = true ↔ v = any ∨ v.Lists e) ↔ (v ≠ any → v.Lists e → ',' ∉ e.opaqueTag) := by
  rw [satisfied_iff]
  constructor
  · intro h hany hlists
    rcases h.2 (Or.inr hlists) with h | h
    · exact absurd h hany
    · exact h.2
  · intro h
    by_cases hany : v = any
    · simp [hany]
    · simp only [hany, false_or]
      exact ⟨fun hs => hs.1, fun hlists => ⟨hlists, h hany hlists⟩⟩

end IfNoneMatch

/-! ## A tag with a comma -/

def commaTag : EntityTag := ⟨false, "a,b".toList, by decide⟩

/-- The header that repeats the tag. -/
def repeated (e : EntityTag) : IfNoneMatch := .tags ⟨[], e, [], by simp⟩ []

/-- **A client that sends back the tag `"a,b"` is not answered from its copy.** -/
theorem comma_tag_unmatched :
    (repeated commaTag).text = "\"a,b\"".toList ∧ commaTag.text = "\"a,b\"".toList ∧
      (repeated commaTag).Lists commaTag ∧ ifNoneMatchSatisfied (repeated commaTag).text commaTag.text = false :=
  ⟨by decide, by decide, ⟨_, List.mem_singleton.2 rfl, rfl⟩, by decide⟩

end Zaphyl
