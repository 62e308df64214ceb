import Zaphyl.Router
/-!
# PathSegments — a prefix match is a match of segments

`path_under_prefix` compares characters and then looks at the next one; `rewrite_path` cuts the prefix off by a second
comparison.  Both come to one fact about the path: it is the trimmed prefix, or the trimmed prefix and then a `/`.
That is to say the prefix's segments are the path's first ones (`pathUnderPrefix_iff_segments`).
-/
namespace Zaphyl

/-- The pieces of a path between its slashes. -/
def segments (s : Str) : List Str := s.splitOn '/'

/-! ## Matching and stripping -/

/-- What `path_under_prefix` reads of a path. -/
theorem pathUnderPrefix_iff {path pre : Str} :
    pathUnderPrefix path pre = true ↔
      trimSlashes pre = [] ∨ path = trimSlashes pre ∨ ∃ t, path = trimSlashes pre ++ '/' :: t := by
  unfold pathUnderPrefix
  by_cases htrim : trimSlashes pre = []
  · rw [if_pos htrim]
    exact iff_of_true rfl (Or.inl htrim)
  · rw [if_neg htrim]
    cases hdrop : path.dropPrefix? (trimSlashes pre) with
    | none =>
      have hnot : ∀ rest, path ≠ trimSlashes pre ++ rest := fun rest h => by
        rw [Text.dropPrefix?_eq_some.2 h] at hdrop
        cases hdrop
      refine iff_of_false (by simp) ?_
      rintro (h | h | ⟨t, h⟩)
      · exact htrim h
      · exact hnot [] (by rw [List.append_nil]; exact h)
      · exact hnot _ h
    | some rest =>
      have hpath := Text.dropPrefix?_eq_some.1 hdrop
      show (rest == [] || rest.head? == some '/') = true ↔ _
      rw [Bool.or_eq_true, beq_iff_eq, beq_iff_eq, hpath]
      simp only [htrim, false_or, List.append_right_eq_self, List.append_cancel_left_eq]
      refine or_congr_right ?_
      rw [List.head?_eq_some_iff]

/-- **A prefix matches a path exactly when it is empty after trimming or its segments are the path's first ones.** -/
theorem pathUnderPrefix_iff_segments {path pre : Str} :
    pathUnderPrefix path pre = true ↔
      trimSlashes pre = [] ∨ segments (trimSlashes pre) <+: segments path := by
  unfold segments
  rw [pathUnderPrefix_iff, Text.splitOn_prefix_iff]

namespace Route

/-- **A matched prefix is cut off where its segments end.** -/
theorem rewritePath_of_matches {r : Route} {pre path : Str} (hr : r.pathPrefix = some pre)
    (hstrip : r.stripPrefix = true) (hpath : path.head? = some '/') (hm : pathUnderPrefix path pre = true) :
    ∃ rest, r.rewritePath path = some rest ∧ rest.head? = some '/' ∧
      (trimSlashes pre ++ rest = path ∨ (rest = ['/'] ∧ path = trimSlashes pre)) := by
  have hrewrite : ∀ rest, path = trimSlashes pre ++ rest →
      r.rewritePath path = some (if rest = [] then ['/'] else rest) := by
    intro rest hsplit
    have hdrop := Text.dropPrefix?_eq_some.2 hsplit
    unfold rewritePath
    rw [hstrip, hr, Option.map_some, hdrop]
    rfl
  rcases pathUnderPrefix_iff.1 hm with htrim | hwhole | ⟨t, hsplit⟩
  · -- the root prefix: the path goes on unchanged
    have hne : path ≠ [] := by
      rintro rfl
      cases hpath
    refine ⟨path, ?_, hpath, Or.inl ?_⟩
    · rw [hrewrite path (by rw [htrim, List.nil_append]), if_neg hne]
    · rw [htrim, List.nil_append]
  · refine ⟨['/'], ?_, rfl, Or.inr ⟨rfl, hwhole⟩⟩
    rw [hrewrite [] (by rw [List.append_nil]; exact hwhole), if_pos rfl]
  · refine ⟨'/' :: t, ?_, rfl, Or.inl hsplit.symm⟩
    rw [hrewrite _ hsplit, if_neg (List.cons_ne_nil _ _)]

/-- **Prefix matching and stripping are exact on segments and agree**: a route matches a path when its trimmed prefix
is empty or is the path's first segments, and what stripping leaves of a matched path begins with `/` and gives the
path back after the trimmed prefix, the bare prefix becoming `/`. -/
theorem matches_and_strips_segments (r : Route) {pre path : Str} (hr : r.pathPrefix = some pre)
    (hpath : path.head? = some '/') :
    (r.pathMatches path = true ↔
      trimSlashes pre = [] ∨ segments (trimSlashes pre) <+: segments path) ∧
    (r.pathMatches path = true → r.stripPrefix = true →
      ∃ rest, r.rewritePath path = some rest ∧ rest.head? = some '/' ∧
        (trimSlashes pre ++ rest = path ∨ (rest = ['/'] ∧ path = trimSlashes pre))) := by
  have hmatches : r.pathMatches path = pathUnderPrefix path pre := by
    unfold pathMatches
    rw [hr]
  rw [hmatches]
  exact ⟨pathUnderPrefix_iff_segments, fun hm hstrip => rewritePath_of_matches hr hstrip hpath hm⟩

/-- `/api/` matches `/api//users` and leaves `//users`; it does not match `/apis`. -/
theorem api_matches_and_strips :
    let r := ((Route.new none (some "/api/".toList) []).withStripPrefix true)
    (r.pathMatches "/api//users".toList = true ∧ r.rewritePath "/api//users".toList = some "//users".toList) ∧
      r.pathMatches "/apis".toList = false := by
  intro r
  have h := @matches_and_strips_segments r "/api/".toList "/api//users".toList rfl rfl
  have hmatches : r.pathMatches "/api//users".toList = true := h.1.2 (Or.inr (by decide))
  obtain ⟨rest, hrest, -, hsplit⟩ := h.2 hmatches rfl
  have hrest' : rest = "//users".toList := by
    rcases hsplit with hsplit | ⟨-, hpath⟩
    · exact @List.append_cancel_left _ (trimSlashes "/api/".toList) _ _ (hsplit.trans rfl)
    · exact absurd hpath (by decide)
  exact ⟨⟨hmatches, hrest' ▸ hrest⟩, by decide⟩

end Route
end Zaphyl
