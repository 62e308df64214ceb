import Zaphyl.StoragePolicy
/-!
# HeaderLists — the values of a list header, over its lines

The values of a list header stand in one line or in several.  A line made of several has their members in order
(`exists_wholeLine`), so that what is read of it is what their texts say together.
-/
namespace Zaphyl

open Text (trim before join)

/-! ## One line for several -/

/-- What may stand behind a comma between two values. -/
structure Blanks where
  bytes : Bytes
  wf : ∀ b ∈ bytes, b = 32 ∨ b = 9

namespace HeaderValue

def comma (blanks : Blanks) (v w : HeaderValue) : HeaderValue :=
  ⟨v.bytes ++ 44 :: (blanks.bytes ++ w.bytes), by
    have hblanks : blanks.bytes.all isValueByte = true := by
      rw [List.all_eq_true]
      intro b hb
      rcases blanks.wf b hb with rfl | rfl <;> decide
    rw [List.all_append, List.all_cons, List.all_append, v.wf, w.wf, hblanks]
    decide⟩

/-- The values in one line. -/
def joinLines (blanks : Blanks) : HeaderValue → List HeaderValue → HeaderValue
  | v, [] => v
  | v, w :: ws => v.comma blanks (joinLines blanks w ws)

end HeaderValue

/-- The header map with the lines of `n` joined into one. -/
def HeaderMap.joined (blanks : Blanks) (n : HeaderName) (m : HeaderMap) : HeaderMap :=
  match m.values n with
  | [] => m
  | v :: vs => m.insert n (HeaderValue.joinLines blanks v vs)

/-! ## The lines of a header -/

/-- Every line is text. -/
def Readable (lines : List HeaderValue) : Prop := ∀ v ∈ lines, v.toStr ≠ none

/-- The texts of the lines that are text. -/
def texts (lines : List HeaderValue) : List Str := lines.filterMap HeaderValue.toStr

/-- What a listener reads: the first line. -/
def firstLine (lines : List HeaderValue) : Option Str := lines.head?.bind HeaderValue.toStr

/-- What is read of a stored response: the first line that is text. -/
def firstText (lines : List HeaderValue) : Option Str := (texts lines).head?

/-- What is read when the lines are one. -/
def wholeLine (blanks : Blanks) : List HeaderValue → Option Str
  | [] => none
  | v :: vs => (HeaderValue.joinLines blanks v vs).toStr

/-- A way to read some line that is the first one where all are text. -/
structure ReadsFirst (read : List HeaderValue → Option Str) : Prop where
  text : ∀ {lines s}, read lines = some s → (texts lines).head? = some s
  readable : ∀ {lines}, Readable lines → read lines = (texts lines).head?

theorem readsFirst_firstLine : ReadsFirst firstLine := by
  constructor
  · intro lines s h
    cases lines with
    | nil => cases h
    | cons v vs =>
      have hv : v.toStr = some s := h
      rw [texts, List.filterMap_cons_some hv]
      rfl
  · intro lines h
    cases lines with
    | nil => rfl
    | cons v vs =>
      obtain ⟨s, hs⟩ := Option.ne_none_iff_exists'.1 (h v List.mem_cons_self)
      show v.toStr = _
      rw [hs, texts, List.filterMap_cons_some hs]
      rfl

theorem readsFirst_firstText : ReadsFirst firstText := ⟨fun h => h, fun _ => rfl⟩

/-! ## Members -/

/-- The trimmed members of a list. -/
def members (s : Str) : List Str := (s.splitOn ',').map trim

theorem members_comma {blanks : Str} (hb : ∀ c ∈ blanks, c = ' ' ∨ c = '\t') (s t : Str) :
    members (s ++ ',' :: (blanks ++ t)) = members s ++ members t := by
  have hfree : ',' ∉ blanks := by
    intro h
    rcases hb _ h with h | h
    · cases h
    · cases h
  have hspace : ∀ c ∈ blanks, Text.isWhitespace c = true := by
    intro c hc
    rcases hb c hc with rfl | rfl <;> decide
  unfold members
  rw [List.splitOn_append_cons_self, List.map_append, Text.splitOn_append_of_forall_ne hfree]
  obtain ⟨p, ps, hp⟩ := List.exists_cons_of_ne_nil (List.splitOn_ne_nil ',' t)
  rw [hp, List.modifyHead_cons, List.map_cons, List.map_cons, Text.trim_append_left hspace]

def memberAge (p : Str) : Option Nat :=
  (p.dropPrefix? "max-age=".toList).bind (fun n => Text.parseUnsigned (2 ^ 64) (trim n))

theorem maxAge_eq_members (s : Str) : maxAge s = (members s).findSome? memberAge := by
  unfold maxAge members
  rw [List.findSome?_map]
  rfl

theorem hasDirective_eq_members (s d : Str) :
    hasDirective (some s) d = (members s).any (fun p => trim (before '=' p) == d) := by
  unfold hasDirective members
  rw [List.any_map]
  rfl

/-- A list with `*` alone names no coding. -/
theorem varyCacheable_eq_members (s : Str) :
    varyCacheable (some s) = (members s).all (fun p => Text.eqIgnoreAsciiCase p "accept-encoding".toList) := by
  have hvisible : Text.isWhitespace ',' = false := by decide
  have hmembers : members (trim s) = members s := Text.map_trim_splitOn_trim hvisible s
  have hall : ((trim s).splitOn ',').all (fun token => Text.eqIgnoreAsciiCase (trim token) "accept-encoding".toList) =
      (members s).all (fun p => Text.eqIgnoreAsciiCase p "accept-encoding".toList) := by
    rw [← hmembers, members, List.all_map]
    rfl
  unfold varyCacheable
  simp only
  by_cases hstar : trim s = ['*']
  · rw [← hmembers, hstar]
    decide
  · rw [hall, bne_iff_ne.2 hstar, Bool.true_and]

theorem acceptTokens_eq_members (s : Str) :
    acceptTokens (some s) = (members s).filterMap (fun p =>
      if Text.asciiLower (trim (before ';' p)) = [] then none else some (Text.asciiLower (trim (before ';' p)))) := by
  have hname : ∀ part, trim (before ';' (trim part)) = trim (before ';' part) := fun part =>
    Text.trim_before_trim (by decide) part
  unfold acceptTokens members
  rw [List.filterMap_map]
  apply List.filterMap_congr
  intro part _
  simp only [Function.comp_apply, hname]

/-! ## The whole line -/

theorem visible_blanks (blanks : Blanks) : blanks.bytes.all isVisible = true := by
  rw [List.all_eq_true]
  intro b hb
  rcases blanks.wf b hb with rfl | rfl <;> decide

/-- A joined line is text when both its parts are, and has the members of both. -/
theorem toStr_comma (blanks : Blanks) (v w : HeaderValue) :
    (v.toStr = none ∨ w.toStr = none → (v.comma blanks w).toStr = none) ∧
      ∀ s t, v.toStr = some s → w.toStr = some t →
        ∃ u, (v.comma blanks w).toStr = some u ∧ members u = members s ++ members t := by
  have hall : (v.comma blanks w).bytes.all isVisible = (v.bytes.all isVisible && w.bytes.all isVisible) := by
    show (v.bytes ++ 44 :: (blanks.bytes ++ w.bytes)).all isVisible = _
    rw [List.all_append, List.all_cons, List.all_append, visible_blanks, Bool.true_and]
    rfl
  have hnone : ∀ {u : HeaderValue}, u.toStr = none ↔ u.bytes.all isVisible = false := by
    intro u
    unfold HeaderValue.toStr
    split <;> simp_all
  constructor
  · intro h
    rw [hnone, hall, Bool.and_eq_false_iff]
    exact h.imp hnone.1 hnone.1
  · intro s t hs ht
    have htext : ∀ {u : HeaderValue} {x : Str}, u.toStr = some x →
        u.bytes.all isVisible = true ∧ x = u.bytes.map (fun b => Char.ofNat b.toNat) := by
      intro u x hx
      unfold HeaderValue.toStr at hx
      split at hx
      · rename_i hvisible
        exact ⟨hvisible, (Option.some.inj hx).symm⟩
      · cases hx
    obtain ⟨hv, rfl⟩ := htext hs
    obtain ⟨hw, rfl⟩ := htext ht
    refine ⟨_, by rw [HeaderValue.toStr, hall, hv, hw]; rfl, ?_⟩
    show members ((v.bytes ++ 44 :: (blanks.bytes ++ w.bytes)).map (fun b => Char.ofNat b.toNat)) = _
    have hblanks : ∀ c ∈ blanks.bytes.map (fun b => Char.ofNat b.toNat), c = ' ' ∨ c = '\t' := by
      intro c hc
      obtain ⟨b, hb, rfl⟩ := List.mem_map.1 hc
      rcases blanks.wf b hb with rfl | rfl
      · exact Or.inl rfl
      · exact Or.inr rfl
    rw [List.map_append, List.map_cons, List.map_append]
    exact members_comma hblanks _ _

theorem wholeLine_of_not_readable (blanks : Blanks) {lines : List HeaderValue} (h : ¬ Readable lines) :
    wholeLine blanks lines = none := by
  cases lines with
  | nil => rfl
  | cons v vs =>
    unfold Readable at h
    push Not at h
    obtain ⟨x, hx, hnone⟩ := h
    show (HeaderValue.joinLines blanks v vs).toStr = none
    induction vs generalizing v with
    | nil => rwa [← List.mem_singleton.1 hx]
    | cons w ws ih =>
      refine (toStr_comma blanks v _).1 ?_
      rcases List.mem_cons.1 hx with rfl | hx
      · exact Or.inl hnone
      · exact Or.inr (ih w hx)

/-- **Lines of text make a line with their members in order.** -/
theorem exists_wholeLine (blanks : Blanks) {lines : List HeaderValue} (hne : lines ≠ []) (h : Readable lines) :
    ∃ u, wholeLine blanks lines = some u ∧ members u = (texts lines).flatMap members := by
  cases lines with
  | nil => exact absurd rfl hne
  | cons v vs =>
    show ∃ u, (HeaderValue.joinLines blanks v vs).toStr = some u ∧ _
    clear hne
    induction vs generalizing v with
    | nil =>
      obtain ⟨s, hs⟩ := Option.ne_none_iff_exists'.1 (h v List.mem_cons_self)
      exact ⟨s, hs, by simp [texts, hs]⟩
    | cons w ws ih =>
      obtain ⟨s, hs⟩ := Option.ne_none_iff_exists'.1 (h v List.mem_cons_self)
      obtain ⟨t, ht, hmembers⟩ := ih w (fun x hx => h x (List.mem_cons_of_mem _ hx))
      obtain ⟨u, hu, hjoined⟩ := (toStr_comma blanks v _).2 s t hs ht
      refine ⟨u, hu, ?_⟩
      have htexts : texts (v :: w :: ws) = s :: texts (w :: ws) := List.filterMap_cons_some hs
      rw [hjoined, hmembers, htexts, List.flatMap_cons]

section
variable (blanks : Blanks) (lines : List HeaderValue)

theorem hasDirective_wholeLine (d : Str) :
    hasDirective (wholeLine blanks lines) d = true ↔
      Readable lines ∧ ∃ line ∈ texts lines, hasDirective (some line) d = true := by
  by_cases hr : Readable lines
  · by_cases hne : lines = []
    · subst hne
      simp [wholeLine, hasDirective, texts]
    · obtain ⟨u, hu, hmembers⟩ := exists_wholeLine blanks hne hr
      rw [hu, hasDirective_eq_members, hmembers, List.any_flatMap, and_iff_right hr]
      simp only [hasDirective_eq_members, List.any_eq_true]
  · rw [wholeLine_of_not_readable blanks hr]
    simp [hasDirective, hr]

theorem maxAge_wholeLine (n : Nat) :
    (wholeLine blanks lines).bind maxAge = some n ↔ Readable lines ∧ (texts lines).findSome? maxAge = some n := by
  by_cases hr : Readable lines
  · by_cases hne : lines = []
    · subst hne
      simp [wholeLine, texts]
    · obtain ⟨u, hu, hmembers⟩ := exists_wholeLine blanks hne hr
      have hfind : ∀ ls : List Str, (ls.flatMap members).findSome? memberAge = ls.findSome? maxAge := by
        intro ls
        induction ls with
        | nil => rfl
        | cons l ls ih =>
          rw [List.flatMap_cons, List.findSome?_append, ih, ← maxAge_eq_members, List.findSome?_cons]
          cases maxAge l <;> rfl
      rw [hu, Option.bind_some, maxAge_eq_members, hmembers, hfind, and_iff_right hr]
  · rw [wholeLine_of_not_readable blanks hr]
    simp [hr]

theorem varyCacheable_wholeLine :
    varyCacheable (wholeLine blanks lines) = false ↔
      Readable lines ∧ ∃ line ∈ texts lines, varyCacheable (some line) = false := by
  by_cases hr : Readable lines
  · by_cases hne : lines = []
    · subst hne
      simp [wholeLine, varyCacheable, texts]
    · obtain ⟨u, hu, hmembers⟩ := exists_wholeLine blanks hne hr
      rw [hu, varyCacheable_eq_members, hmembers, List.all_flatMap, and_iff_right hr, List.all_eq_false]
      simp only [varyCacheable_eq_members, Bool.not_eq_true]
  · rw [wholeLine_of_not_readable blanks hr]
    simp [varyCacheable, hr]

theorem mem_acceptTokens_wholeLine (t : Str) :
    t ∈ acceptTokens (wholeLine blanks lines) ↔
      Readable lines ∧ ∃ line ∈ texts lines, t ∈ acceptTokens (some line) := by
  have hnone : acceptTokens none = [] := by decide
  by_cases hr : Readable lines
  · by_cases hne : lines = []
    · subst hne
      simp [wholeLine, hnone, texts]
    · obtain ⟨u, hu, hmembers⟩ := exists_wholeLine blanks hne hr
      rw [hu, acceptTokens_eq_members, hmembers, and_iff_right hr]
      simp only [acceptTokens_eq_members, List.mem_filterMap, List.mem_flatMap]
      constructor
      · rintro ⟨p, ⟨line, hline, hp⟩, ht⟩
        exact ⟨line, hline, p, hp, ht⟩
      · rintro ⟨line, hline, p, hp, ht⟩
        exact ⟨p, ⟨line, hline, hp⟩, ht⟩
  · rw [wholeLine_of_not_readable blanks hr, hnone]
    simp [hr]

end

/-! ## Header maps -/

namespace HeaderMap

variable (blanks : Blanks) (m : HeaderMap) {n k : HeaderName}

theorem getStr_eq_firstLine (n : HeaderName) : m.getStr n = firstLine (m.values n) := by
  rw [getStr, get_eq_head?, firstLine]

theorem values_joined_ne (h : k ≠ n) : (m.joined blanks k).values n = m.values n := by
  unfold joined
  split
  · rfl
  · exact values_insert_ne _ _ h

theorem values_joined_self : (m.joined blanks n).values n =
    match m.values n with
    | [] => []
    | v :: vs => [HeaderValue.joinLines blanks v vs] := by
  unfold joined
  cases h : m.values n with
  | nil => exact h
  | cons v vs => exact values_insert_self _ _

theorem firstLine_joined (n : HeaderName) :
    firstLine ((m.joined blanks n).values n) = wholeLine blanks (m.values n) := by
  rw [values_joined_self]
  cases m.values n with
  | nil => rfl
  | cons v vs => rfl

theorem firstText_joined (n : HeaderName) :
    firstText ((m.joined blanks n).values n) = wholeLine blanks (m.values n) := by
  rw [values_joined_self]
  cases m.values n with
  | nil => rfl
  | cons v vs =>
    show (texts [HeaderValue.joinLines blanks v vs]).head? = (HeaderValue.joinLines blanks v vs).toStr
    unfold texts
    cases h : (HeaderValue.joinLines blanks v vs).toStr with
    | none => rw [List.filterMap_cons_none h]; rfl
    | some s => rw [List.filterMap_cons_some h]; rfl

theorem containsKey_joined_ne (h : k ≠ n) : (m.joined blanks k).containsKey n = m.containsKey n := by
  rw [Bool.eq_iff_iff, containsKey_iff_values, containsKey_iff_values, values_joined_ne blanks m h]

theorem getStr_joined_ne (h : k ≠ n) : (m.joined blanks k).getStr n = m.getStr n := by
  rw [getStr_eq_firstLine, getStr_eq_firstLine, values_joined_ne blanks m h]

end HeaderMap

end Zaphyl
