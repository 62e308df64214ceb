import Zaphyl.ForwardStage
/-!
# RevalidationResource — what a conditional request asks for

The plain path rewrites the path by its route; a conditional request names the client's own path and query.  Of a path
that begins with a slash the two ask for one resource exactly when the route keeps the path or nothing rewritten is
sent; what stands before the first slash of another is taken for the authority (`revalidates_same_resource_iff`).
-/
namespace Zaphyl

open Text (before)

/-! ## Resources -/

/-- The path and query that a path-and-query text names. -/
def resourceOf (pathAndQuery : Str) : Str × Option Str :=
  let uri : Uri := ⟨none, some pathAndQuery⟩
  (uri.path, uri.query)

/-- What a request with an absolute URI asks for: the path and query behind its authority, which takes in all that
stands before the first slash or question mark. -/
def OriginRequest.resource (request : OriginRequest) : Str × Option Str :=
  resourceOf (behindAuthority (withoutScheme request.uri))

/-- What the plain path asks an origin for.  HTTP/1 sends a path and query, HTTP/3 an absolute URI. -/
def Server.plainResource (s : Server) (listener : Listener) (v : Visit) (matched : Route) (target : Target) :
    Option (Str × Option Str) :=
  match listener with
  | .http1 => (s.plainRequest .http1 v matched target).map (fun request => resourceOf request.uri)
  | .http3 => (s.plainRequest .http3 v matched target).map OriginRequest.resource

/-- The path of the URI, if it has one, begins with a slash; that of `*` does not. -/
def Uri.Rooted (uri : Uri) : Prop := uri.path = [] ∨ uri.path.head? = some '/'

/-- The route forwards paths as they are: it strips no prefix, or one of slashes only. -/
def Route.KeepsPath (r : Route) : Prop :=
  r.stripPrefix = false ∨ ∀ pre, r.pathPrefix = some pre → trimSlashes pre = []

/-- The route strips nothing, or a prefix without a slash, which only a path that is not rooted can begin with. -/
def Route.StripsNoSlash (r : Route) : Prop :=
  r.stripPrefix = false ∨ ∀ pre, r.pathPrefix = some pre → '/' ∉ trimSlashes pre

/-- The route puts the client's own text in the place of its URI, and parsed again that names what stands behind an
authority: it is not `*`, and has no scheme. -/
def Route.ParsesAgain (r : Route) (uri : Uri) : Prop :=
  r.rewritePath uri.path ≠ none ∧ uri.pathAndQueryOr ≠ ['*'] ∧ withoutScheme uri.pathAndQueryOr = uri.pathAndQueryOr

/-- No rewritten path is sent: HTTP/1 leaves out one that is no URI, HTTP/3 then fails the request, and also for an
invalid header of the route. -/
def Server.RewriteLost (s : Server) (listener : Listener) (v : Visit) (matched : Route) (target : Target) : Prop :=
  match listener with
  | .http1 => s.validUri (withQuery ((matched.rewritePath v.req.uri.path).getD v.req.uri.path) v.req.uri.query) = false
  | .http3 => Http3.Unforwardable s v matched target

/-- No character that ends an authority stands in either address, and no fragment behind the client's path and query. -/
def PlainTexts (uri : Uri) (asked target : Target) : Prop :=
  asked.address.any endsAuthority = false ∧ target.address.any endsAuthority = false ∧ '#' ∉ uri.pathAndQueryOr

/-- The route keeps the path or the rewritten path is lost; and of a path that is not rooted, what the URI parser takes
for the authority is left out of both requests: it is stripped, or parsed so once more. -/
def Server.PathKept (s : Server) (listener : Listener) (v : Visit) (matched : Route) (target : Target) : Prop :=
  match listener with
  | .http1 => v.req.uri.Rooted ∧ (matched.KeepsPath ∨ s.RewriteLost .http1 v matched target) ∨
      ¬ v.req.uri.Rooted ∧ ¬ s.RewriteLost .http1 v matched target ∧
        (¬ matched.KeepsPath ∧ matched.StripsNoSlash ∨ matched.KeepsPath ∧ matched.ParsesAgain v.req.uri)
  | .http3 => matched.StripsNoSlash ∨ s.RewriteLost .http3 v matched target

/-- The texts read alike: an address that is cut short makes what is left of it part of the path. -/
def Server.TextsAgree (s : Server) (listener : Listener) (v : Visit) (matched : Route) (asked target : Target) : Prop :=
  let client := v.req.uri.pathAndQueryOr
  let rewritten := (matched.rewritePath v.req.uri.path).map (fun path => withQuery path v.req.uri.query)
  let behindAsked := behindAuthority (asked.address ++ client)
  match listener with
  | .http1 =>
    resourceOf behindAsked = resourceOf (((rewritten.filter s.validUri).map parsedPathAndQuery).getD client)
  | .http3 => Http3.Unforwardable s v matched target ∨ resourceOf behindAsked =
      resourceOf (behindAuthority (target.address ++ rewritten.getD (withQuery v.req.uri.path v.req.uri.query)))

/-- Where the conditional request to `asked` and the plain path to `target` ask for one resource. -/
structure Server.AsksAlike (s : Server) (listener : Listener) (v : Visit) (matched : Route) (asked target : Target) :
    Prop where
  plain : PlainTexts v.req.uri asked target → s.PathKept listener v matched target
  cut : ¬ PlainTexts v.req.uri asked target → s.TextsAgree listener v matched asked target

/-! ## Paths -/

theorem resourceOf_withQuery {path : Str} (h : '?' ∉ path) (query : Option Str) :
    resourceOf (withQuery path query) = (if path = [] then ['/'] else path, query) := by
  cases query with
  | none =>
    have hpath : before '?' path = path := Text.before_of_not_mem h
    simp [resourceOf, withQuery, Uri.path, Uri.query, hpath, h]
  | some query =>
    have hpath : before '?' (path ++ '?' :: query) = path := Text.before_append_cons h query
    have hquery : (path ++ '?' :: query).drop (path.length + 1) = query := by simp
    simp only [resourceOf, withQuery, Uri.path, Uri.query, hpath, Option.bind_some, List.mem_append, List.mem_cons,
      true_or, or_true, if_true, hquery]

theorem not_mem_path (uri : Uri) : '?' ∉ uri.path := by
  unfold Uri.path
  cases uri.pathAndQuery with
  | none => exact List.not_mem_nil
  | some pq =>
    simp only
    split
    · decide
    · exact Text.not_mem_before _ _

/-- The client's path and query, put together again, ask for the same. -/
theorem resourceOf_pathAndQueryOr (uri : Uri) :
    resourceOf uri.pathAndQueryOr = (if uri.path = [] then ['/'] else uri.path, uri.query) := by
  unfold Uri.pathAndQueryOr Uri.path Uri.query
  cases uri.pathAndQuery with
  | none => decide
  | some pq =>
    have hne : ¬ (if before '?' pq = [] then ['/'] else before '?' pq) = [] := by
      split
      · exact List.cons_ne_nil _ _
      · assumption
    simp only [Option.getD_some, Option.bind_some, if_neg hne]
    rfl

/-! ### Behind the authority -/

/-- The path behind an authority that takes in all before its first slash. -/
def rootedPath (path : Str) : Str :=
  let rooted := path.dropWhile (fun c => c != '/')
  if rooted = [] then ['/'] else rooted

theorem dropWhile_withQuery (query : Option Str) : ∀ {path : Str}, '?' ∉ path → '#' ∉ path →
    (withQuery path query).dropWhile (fun c => !endsAuthority c) = withQuery (path.dropWhile (fun c => c != '/')) query
  | [], _, _ => by cases query <;> rfl
  | c :: path, hquery, hfragment => by
    have hc : c ≠ '?' := fun h => hquery (h ▸ List.mem_cons_self)
    have hc' : c ≠ '#' := fun h => hfragment (h ▸ List.mem_cons_self)
    have hcons : withQuery (c :: path) query = c :: withQuery path query := by cases query <;> rfl
    rw [hcons]
    by_cases hslash : c = '/'
    · subst hslash
      exact hcons.symm
    · have hdrop : (!endsAuthority c) = true := by simp [endsAuthority, hslash, hc, hc']
      have hne : (c != '/') = true := bne_iff_ne.2 hslash
      rw [List.dropWhile_cons, if_pos hdrop, List.dropWhile_cons, if_pos hne]
      exact dropWhile_withQuery query (fun h => hquery (List.mem_cons_of_mem _ h))
        (fun h => hfragment (List.mem_cons_of_mem _ h))

theorem not_mem_withQuery {path : Str} {query : Option Str} (hpath : '#' ∉ path) (hquery : ∀ q ∈ query, '#' ∉ q) :
    '#' ∉ withQuery path query := by
  cases query with
  | none => exact hpath
  | some q =>
    show '#' ∉ path ++ '?' :: q
    rw [List.mem_append, List.mem_cons]
    rintro (h | h | h)
    · exact hpath h
    · exact absurd h (by decide)
    · exact hquery q rfl h

/-- **What is asked for behind an address**, without a fragment: the part before the first slash is none of it. -/
theorem resourceOf_behind {address path : Str} {query : Option Str} (haddress : address.any endsAuthority = false)
    (hmark : '?' ∉ path) (hpath : '#' ∉ path) (hquery : ∀ q ∈ query, '#' ∉ q) :
    resourceOf (behindAuthority (address ++ withQuery path query)) = (rootedPath path, query) := by
  have hkept : ∀ c ∈ address, (!endsAuthority c) = true := by
    intro c hc
    rw [List.any_eq_false] at haddress
    rw [Bool.eq_false_iff.2 (haddress c hc)]
    rfl
  have hwhole : '#' ∉ address ++ withQuery path query := by
    rw [List.mem_append]
    rintro (h | h)
    · exact absurd (hkept _ h) (by decide)
    · exact not_mem_withQuery hpath hquery h
  have hrooted : '?' ∉ path.dropWhile (fun c => c != '/') := fun h => hmark ((List.dropWhile_sublist _).subset h)
  unfold behindAuthority
  rw [Text.before_of_not_mem hwhole, List.dropWhile_append_of_pos hkept, dropWhile_withQuery query hmark hpath,
    resourceOf_withQuery hrooted]
  rfl

theorem pathAndQueryOr_eq (uri : Uri) :
    uri.pathAndQueryOr = withQuery (before '?' uri.pathAndQueryOr) uri.query := by
  unfold Uri.pathAndQueryOr Uri.query
  cases uri.pathAndQuery with
  | none => decide
  | some pq =>
    rw [Option.getD_some, Option.bind_some]
    by_cases hmark : '?' ∈ pq
    · obtain ⟨pre, post, rfl, hpre⟩ := List.eq_append_cons_of_mem hmark
      rw [if_pos hmark, Text.before_append_cons hpre]
      simp [withQuery]
    · rw [if_neg hmark, Text.before_of_not_mem hmark]
      rfl

theorem rootedPath_before (uri : Uri) : rootedPath (before '?' uri.pathAndQueryOr) = rootedPath uri.path := by
  unfold Uri.pathAndQueryOr Uri.path
  cases uri.pathAndQuery with
  | none => decide
  | some pq =>
    rw [Option.getD_some]
    simp only
    split
    · rename_i hnil
      rw [hnil]
      decide
    · rfl

theorem head?_rootedPath (path : Str) : (rootedPath path).head? = some '/' := by
  unfold rootedPath
  simp only
  split
  · rfl
  · rename_i hne
    have hhead := List.head?_dropWhile_not (fun c => c != '/') path
    cases hdrop : path.dropWhile (fun c => c != '/') with
    | nil => exact absurd hdrop hne
    | cons c rest =>
      rw [hdrop] at hhead
      simpa using hhead

/-- A path is what is asked for behind an authority exactly when it is rooted. -/
theorem rootedPath_eq_iff (uri : Uri) :
    rootedPath uri.path = (if uri.path = [] then ['/'] else uri.path) ↔ uri.Rooted := by
  unfold Uri.Rooted
  by_cases hnil : uri.path = []
  · rw [if_pos hnil, hnil]
    exact iff_of_true rfl (Or.inl rfl)
  · rw [if_neg hnil, or_iff_right hnil]
    constructor
    · intro h
      rw [← h]
      exact head?_rootedPath _
    · intro h
      cases hpath : uri.path with
      | nil => exact absurd hpath hnil
      | cons c path =>
        rw [hpath, List.head?_cons, Option.some.injEq] at h
        subst h
        rfl

/-! ### The rewritten path -/

theorem trimSlashes_ne_concat (pre text : Str) : trimSlashes pre ≠ text ++ ['/'] := by
  intro h
  have hne : pre.rdropWhile (fun c => c == '/') ≠ [] := by
    rw [show pre.rdropWhile _ = text ++ ['/'] from h]
    simp
  have hlast := List.rdropWhile_last_not (fun c => c == '/') pre hne
  have hlast' : ((pre.rdropWhile (fun c => c == '/')).getLast hne == '/') = true := by
    simp [show pre.rdropWhile (fun c => c == '/') = text ++ ['/'] from h]
  exact hlast hlast'

/-- **What the rewriting of a matched path leaves**: the path, or what stands behind a prefix that has more than
slashes. -/
theorem rewritten_cases {r : Route} {path : Str} (hmatch : r.pathMatches path = true) :
    (r.KeepsPath ∧ r.StripsNoSlash ∧
      (r.rewritePath path = none ∨ r.rewritePath path = some (if path = [] then ['/'] else path))) ∨
    ∃ stripped rest, path = stripped ++ rest ∧ stripped ≠ [] ∧ (∀ text, stripped ≠ text ++ ['/']) ∧
      (rest = [] ∨ rest.head? = some '/') ∧ ¬ r.KeepsPath ∧ (r.StripsNoSlash ↔ '/' ∉ stripped) ∧
      r.rewritePath path = some (if rest = [] then ['/'] else rest) := by
  cases hstrip : r.stripPrefix with
  | false =>
    have hnone : r.rewritePath path = none := by simp [Route.rewritePath, hstrip]
    exact .inl ⟨.inl hstrip, .inl hstrip, .inl hnone⟩
  | true =>
    cases hpre : r.pathPrefix with
    | none =>
      have hnone : r.rewritePath path = none := by simp [Route.rewritePath, hpre]
      have hno : ∀ {P : Str → Prop} pre, r.pathPrefix = some pre → P pre := fun pre h => by rw [hpre] at h; cases h
      exact .inl ⟨.inr hno, .inr hno, .inl hnone⟩
    | some pre =>
      have hrewrite : r.rewritePath path = some (if (path.dropPrefix? (trimSlashes pre)).getD path = [] then ['/']
          else (path.dropPrefix? (trimSlashes pre)).getD path) := by
        simp [Route.rewritePath, hstrip, hpre]
      have hkeeps : r.KeepsPath ↔ trimSlashes pre = [] := by simp [Route.KeepsPath, hstrip, hpre]
      have hslash : r.StripsNoSlash ↔ '/' ∉ trimSlashes pre := by simp [Route.StripsNoSlash, hstrip, hpre]
      by_cases htrim : trimSlashes pre = []
      · rw [htrim, List.dropPrefix?_nil, Option.getD_some] at hrewrite
        refine .inl ⟨hkeeps.2 htrim, hslash.2 ?_, .inr hrewrite⟩
        rw [htrim]
        exact List.not_mem_nil
      · rw [Route.pathMatches, hpre] at hmatch
        simp only [pathUnderPrefix, if_neg htrim] at hmatch
        cases hdrop : path.dropPrefix? (trimSlashes pre) with
        | none =>
          rw [hdrop] at hmatch
          cases hmatch
        | some rest =>
          rw [hdrop] at hmatch
          simp only [Bool.or_eq_true, beq_iff_eq] at hmatch
          rw [hdrop, Option.getD_some] at hrewrite
          exact .inr ⟨trimSlashes pre, rest, Text.dropPrefix?_eq_some.1 hdrop, htrim, trimSlashes_ne_concat pre, hmatch,
            fun h => htrim (hkeeps.1 h), hslash, hrewrite⟩

/-- Behind a part without a slash the path is what follows; one with a slash leaves more. -/
theorem rootedPath_append_iff {stripped rest : Str} (hlast : ∀ text, stripped ≠ text ++ ['/'])
    (hrest : rest = [] ∨ rest.head? = some '/') :
    rootedPath (stripped ++ rest) = (if rest = [] then ['/'] else rest) ↔ '/' ∉ stripped := by
  constructor
  · intro h hmem
    have hdrop : stripped.dropWhile (fun c => c != '/') ≠ [] := by
      intro hnil
      have hall := List.dropWhile_eq_nil_iff.1 hnil _ hmem
      simp at hall
    have hwhole : rootedPath (stripped ++ rest) = stripped.dropWhile (fun c => c != '/') ++ rest := by
      have hkept : (stripped ++ rest).dropWhile (fun c => c != '/') =
          stripped.dropWhile (fun c => c != '/') ++ rest := by
        rw [List.dropWhile_append, if_neg (by rw [List.isEmpty_iff]; exact hdrop)]
      unfold rootedPath
      rw [hkept]
      exact if_neg (List.append_ne_nil_of_left_ne_nil hdrop _)
    rw [hwhole] at h
    by_cases hnil : rest = []
    · rw [if_pos hnil, hnil, List.append_nil] at h
      refine hlast (stripped.takeWhile (fun c => c != '/')) ?_
      rw [← h, List.takeWhile_append_dropWhile]
    · rw [if_neg hnil] at h
      exact hdrop (List.append_left_eq_self.1 h)
  · intro hmem
    have hkept : ∀ c ∈ stripped, (c != '/') = true := fun c hc => bne_iff_ne.2 (fun h => hmem (h ▸ hc))
    unfold rootedPath
    rw [List.dropWhile_append_of_pos hkept]
    rcases hrest with rfl | hhead
    · rfl
    · cases rest with
      | nil => rfl
      | cons c rest =>
        rw [List.head?_cons, Option.some.injEq] at hhead
        subst hhead
        rfl

section

variable {r : Route} {uri : Uri}

/-- The rewritten path and the client's are one path behind an authority exactly when the route strips no slash. -/
theorem rootedPath_rewritten_iff (hmatch : r.pathMatches uri.path = true) :
    rootedPath uri.path = rootedPath ((r.rewritePath uri.path).getD uri.path) ↔ r.StripsNoSlash := by
  rcases rewritten_cases hmatch with
    ⟨-, hslash, hnone | hsame⟩ | ⟨stripped, rest, hpath, -, hlast, hrest, -, hslash, hsome⟩
  · rw [hnone]
    exact iff_of_true rfl hslash
  · rw [hsame, Option.getD_some]
    refine iff_of_true ?_ hslash
    split
    · rename_i hnil
      rw [hnil]
      rfl
    · rfl
  · have hrooted : rootedPath (if rest = [] then ['/'] else rest) = if rest = [] then ['/'] else rest := by
      have hne : ∀ text : Str, [] ≠ text ++ ['/'] := fun text h => by simp at h
      have hnone := (rootedPath_append_iff hne hrest).2 List.not_mem_nil
      by_cases hnil : rest = []
      · rw [if_pos hnil]
        rfl
      · rw [if_neg hnil] at hnone ⊢
        exact hnone
    rw [hsome, Option.getD_some, hrooted, hpath, rootedPath_append_iff hlast hrest]
    exact hslash.symm

/-- Of a path that is not rooted all is stripped before its first slash where what is left is asked for. -/
theorem stripped_eq_rootedPath_iff {stripped rest : Str} (hpath : uri.path = stripped ++ rest) (hne : stripped ≠ [])
    (hlast : ∀ text, stripped ≠ text ++ ['/']) (hrest : rest = [] ∨ rest.head? = some '/') :
    rootedPath uri.path = (if rest = [] then ['/'] else rest) ↔ ¬ uri.Rooted ∧ '/' ∉ stripped := by
  -- a rooted path begins with the slash of what is stripped
  have hrooted : uri.Rooted → '/' ∈ stripped := by
    rintro (hnil | hhead)
    · rw [hpath, List.append_eq_nil_iff] at hnil
      exact absurd hnil.1 hne
    · rw [hpath, List.head?_append_of_ne_nil _ hne] at hhead
      exact List.mem_of_mem_head? hhead
  rw [hpath, rootedPath_append_iff hlast hrest]
  exact ⟨fun h => ⟨fun hr => h (hrooted hr), h⟩, fun h => h.2⟩

theorem rewritten_subset (hmatch : r.pathMatches uri.path = true) :
    ∀ c ∈ (r.rewritePath uri.path).getD uri.path, c ∈ uri.path ∨ c = '/' := by
  intro c hc
  rcases rewritten_cases hmatch with ⟨-, -, hnone | hsame⟩ | ⟨stripped, rest, hpath, -, -, -, -, -, hsome⟩
  · rw [hnone] at hc
    exact .inl hc
  · rw [hsame, Option.getD_some] at hc
    split at hc
    · exact .inr (List.mem_singleton.1 hc)
    · exact .inl hc
  · rw [hsome, Option.getD_some] at hc
    split at hc
    · exact .inr (List.mem_singleton.1 hc)
    · rw [hpath]
      exact .inl (List.mem_append_right _ hc)

/-- A rewritten path holds no query. -/
theorem not_mem_rewritten (hmatch : r.pathMatches uri.path = true) :
    '?' ∉ (r.rewritePath uri.path).getD uri.path := by
  intro h
  rcases rewritten_subset hmatch _ h with h | h
  · exact not_mem_path _ h
  · exact absurd h (by decide)

end

/-- Where the client's text has no fragment, neither its path nor its query has. -/
theorem not_mem_of_pathAndQueryOr {uri : Uri} (h : '#' ∉ uri.pathAndQueryOr) :
    '#' ∉ before '?' uri.pathAndQueryOr ∧ '#' ∉ uri.path ∧ ∀ q ∈ uri.query, '#' ∉ q := by
  have hbefore : '#' ∉ before '?' uri.pathAndQueryOr := fun hm => h (Text.before_subset _ _ hm)
  refine ⟨hbefore, ?_, ?_⟩
  · unfold Uri.pathAndQueryOr at hbefore
    unfold Uri.path
    cases hpq : uri.pathAndQuery with
    | none => exact List.not_mem_nil
    | some pq =>
      rw [hpq] at hbefore
      simp only
      split
      · decide
      · exact hbefore
  · intro q hq hm
    rw [pathAndQueryOr_eq uri, Option.mem_def.1 hq] at h
    exact h (List.mem_append_right _ (List.mem_cons_of_mem _ hm))

/-! ### Texts that are parsed again -/

theorem head?_withQuery {path : Str} (h : path ≠ []) (query : Option Str) :
    (withQuery path query).head? = path.head? := by
  cases query with
  | none => rfl
  | some query => exact List.head?_append_of_ne_nil _ h

/-- A rooted path and a query are parsed as themselves. -/
theorem resourceOf_parsed_rooted {path : Str} (h : path.head? = some '/') (hmark : '?' ∉ path) (query : Option Str) :
    resourceOf (parsedPathAndQuery (withQuery path query)) = (path, query) := by
  have hne : path ≠ [] := by
    rintro rfl
    cases h
  have hsame : parsedPathAndQuery (withQuery path query) = withQuery path query :=
    if_pos (.inl ((head?_withQuery hne query).trans h))
  rw [hsame, resourceOf_withQuery hmark, if_neg hne]

/-- The text of a path that is not rooted is the client's. -/
theorem withQuery_path {uri : Uri} (h : ¬ uri.Rooted) : withQuery uri.path uri.query = uri.pathAndQueryOr := by
  have hpath : before '?' uri.pathAndQueryOr = uri.path := by
    unfold Uri.Rooted at h
    unfold Uri.pathAndQueryOr
    unfold Uri.path at h ⊢
    cases hpq : uri.pathAndQuery with
    | none => exact absurd (.inl (by rw [hpq])) h
    | some pq =>
      rw [hpq] at h
      simp only at h ⊢
      split
      · rename_i hnil
        exact absurd (.inr (by rw [if_pos hnil]; rfl)) h
      · rfl
  rw [pathAndQueryOr_eq uri, hpath]

theorem length_before_dropWhile_le : ∀ text : Str,
    (before '?' (text.dropWhile (fun c => !endsAuthority c))).length ≤ (before '?' text).length
  | [] => Nat.le_refl _
  | c :: text => by
    rw [List.dropWhile_cons]
    split
    · rename_i hkept
      have hc : c ≠ '?' := by
        rintro rfl
        exact absurd hkept (by decide)
      rw [Text.before_cons_ne hc, List.length_cons]
      exact Nat.le_succ_of_le (length_before_dropWhile_le text)
    · exact Nat.le_refl _

/-- A path behind an authority is no longer than the text, but for the slash of an empty one. -/
theorem length_path_behind_le {text : Str} (h : '#' ∉ text) :
    (resourceOf (behindAuthority text)).1.length ≤ (before '?' text).length + 1 := by
  have hshorter := length_before_dropWhile_le text
  unfold behindAuthority
  rw [Text.before_of_not_mem h]
  simp only [resourceOf, Uri.path]
  split
  · exact Nat.le_add_left 1 _
  · exact Nat.le_succ_of_le hshorter

/-- Behind a scheme a path has two slashes more than what follows them. -/
theorem rootedPath_of_scheme {path scheme rest : Str} {query : Option Str} (hmark : '?' ∉ path)
    (hscheme : ∀ c ∈ scheme, endsAuthority c = false)
    (htext : withQuery path query = scheme ++ ':' :: '/' :: '/' :: rest) :
    rootedPath path = '/' :: '/' :: before '?' rest := by
  have hnone : ∀ c ∈ scheme, (c != '?') = true := by
    intro c hc
    rw [bne_iff_ne]
    rintro rfl
    exact absurd (hscheme _ hc) (by decide)
  have hslash : ∀ c ∈ scheme ++ [':'], (c != '/') = true := by
    intro c hc
    rw [bne_iff_ne]
    rintro rfl
    rcases List.mem_append.1 hc with hc | hc
    · exact absurd (hscheme _ hc) (by decide)
    · exact absurd hc (by decide)
  have hsplit : path = (scheme ++ [':']) ++ '/' :: '/' :: before '?' rest := by
    have hbefore : before '?' (withQuery path query) = path := by
      cases query with
      | none => exact Text.before_of_not_mem hmark
      | some query => exact Text.before_append_cons hmark query
    rw [← hbefore, htext]
    unfold before
    rw [List.takeWhile_append_of_pos hnone, List.append_assoc]
    rfl
  unfold rootedPath
  rw [hsplit, List.dropWhile_append_of_pos hslash]
  rfl

/-- A text names what stands behind its first slash exactly when it has no scheme. -/
theorem resourceOf_withoutScheme_iff {path : Str} {query : Option Str} (hmark : '?' ∉ path) (hpath : '#' ∉ path)
    (hquery : ∀ q ∈ query, '#' ∉ q) :
    (rootedPath path, query) = resourceOf (behindAuthority (withoutScheme (withQuery path query))) ↔
      withoutScheme (withQuery path query) = withQuery path query := by
  constructor
  · intro h
    rcases withoutScheme_cases (withQuery path query) with hsame | ⟨scheme, htext, hscheme⟩
    · exact hsame
    · exfalso
      have hlonger := rootedPath_of_scheme hmark hscheme htext
      generalize withoutScheme (withQuery path query) = rest at h htext hlonger
      have hfragment : '#' ∉ rest := by
        intro hm
        have hwhole := not_mem_withQuery hpath hquery
        rw [htext] at hwhole
        exact hwhole (by simp [hm])
      have hshort := length_path_behind_le hfragment
      rw [← h, hlonger, List.length_cons, List.length_cons] at hshort
      omega
  · intro h
    have hbehind : resourceOf (behindAuthority ([] ++ withQuery path query)) = _ :=
      resourceOf_behind rfl hmark hpath hquery
    rw [h]
    exact hbehind.symm

/-- The client's text that is not rooted, parsed again. -/
theorem resourceOf_parsed_iff {uri : Uri} (hrooted : ¬ uri.Rooted) (hfragment : '#' ∉ uri.pathAndQueryOr) :
    (rootedPath uri.path, uri.query) = resourceOf (parsedPathAndQuery uri.pathAndQueryOr) ↔
      uri.pathAndQueryOr ≠ ['*'] ∧ withoutScheme uri.pathAndQueryOr = uri.pathAndQueryOr := by
  by_cases hstar : uri.pathAndQueryOr = ['*']
  · rw [parsedPathAndQuery, if_pos (.inr hstar), resourceOf_pathAndQueryOr, Prod.mk.injEq, and_iff_left rfl,
      rootedPath_eq_iff]
    exact iff_of_false hrooted (fun h => h.1 hstar)
  · have htext := withQuery_path hrooted
    have hhead : ¬ (uri.pathAndQueryOr.head? = some '/' ∨ uri.pathAndQueryOr = ['*']) := by
      rintro (hslash | h)
      · rw [← htext, head?_withQuery (fun hnil => hrooted (.inl hnil))] at hslash
        exact hrooted (.inr hslash)
      · exact hstar h
    obtain ⟨-, hpath, hquery⟩ := not_mem_of_pathAndQueryOr hfragment
    rw [parsedPathAndQuery, if_neg hhead, and_iff_right hstar, ← htext]
    exact resourceOf_withoutScheme_iff (not_mem_path uri) hpath hquery

/-- **What the rewriting of HTTP/1 sends asks for the client's path behind an authority** where a rooted path is kept,
and where of a path that is not rooted the part before its first slash is left out. -/
theorem rewritten_kept_iff {r : Route} {uri : Uri} (hmatch : r.pathMatches uri.path = true)
    (hfragment : '#' ∉ uri.pathAndQueryOr) :
    (rootedPath uri.path, uri.query) = resourceOf (((r.rewritePath uri.path).map (fun path =>
        parsedPathAndQuery (withQuery path uri.query))).getD uri.pathAndQueryOr) ↔
      uri.Rooted ∧ r.KeepsPath ∨
        ¬ uri.Rooted ∧ (¬ r.KeepsPath ∧ r.StripsNoSlash ∨ r.KeepsPath ∧ r.ParsesAgain uri) := by
  rcases rewritten_cases hmatch with
    ⟨hkeeps, -, hnone | hsame⟩ | ⟨stripped, rest, hpath, hne, hlast, hrest, hkeeps, hslash, hsome⟩
  · rw [hnone, Option.map_none, Option.getD_none, resourceOf_pathAndQueryOr, Prod.mk.injEq, and_iff_left rfl,
      rootedPath_eq_iff]
    simp [hkeeps, Route.ParsesAgain, hnone]
  · rw [hsame, Option.map_some, Option.getD_some]
    by_cases hrooted : uri.Rooted
    · have hhead : (if uri.path = [] then ['/'] else uri.path).head? = some '/' := by
        rw [← (rootedPath_eq_iff uri).2 hrooted]
        exact head?_rootedPath _
      have hmark : '?' ∉ (if uri.path = [] then ['/'] else uri.path) := by
        split
        · decide
        · exact not_mem_path uri
      rw [resourceOf_parsed_rooted hhead hmark, (rootedPath_eq_iff uri).2 hrooted]
      exact iff_of_true rfl (.inl ⟨hrooted, hkeeps⟩)
    · have hne : uri.path ≠ [] := fun hnil => hrooted (.inl hnil)
      rw [if_neg hne, withQuery_path hrooted, resourceOf_parsed_iff hrooted hfragment]
      simp [hrooted, hkeeps, Route.ParsesAgain, hsame]
  · have hhead : (if rest = [] then ['/'] else rest).head? = some '/' := by
      split
      · rfl
      · rename_i hnil
        exact hrest.resolve_left hnil
    have hmark : '?' ∉ (if rest = [] then ['/'] else rest) := by
      have hnone := not_mem_rewritten hmatch
      rwa [hsome, Option.getD_some] at hnone
    rw [hsome, Option.map_some, Option.getD_some, resourceOf_parsed_rooted hhead hmark, Prod.mk.injEq,
      and_iff_left rfl, stripped_eq_rootedPath_iff hpath hne hlast hrest, ← hslash]
    simp [hkeeps]

/-! ## The two requests -/

theorem resource_of_originUri (target : Target) (method pathAndQuery : Str) (headers : HeaderMap) :
    OriginRequest.resource ⟨target, method, originUri target pathAndQuery, headers⟩ =
      resourceOf (behindAuthority (target.address ++ pathAndQuery)) := by
  show resourceOf (behindAuthority (withoutScheme (originUri target pathAndQuery))) = _
  rw [withoutScheme_originUri]

/-- A conditional request asks behind its target's address for the client's path and query. -/
theorem resource_conditional {s : Server} {target : Target} {l : CacheLookup} {etag : Str} {request : OriginRequest}
    (h : s.conditional target l etag = some request) : request.target = target ∧
      request.resource = resourceOf (behindAuthority (target.address ++ l.pathAndQuery)) := by
  unfold Server.conditional at h
  split at h
  · obtain ⟨headers, -, rfl⟩ := Option.map_eq_some_iff.1 h
    exact ⟨rfl, resource_of_originUri ..⟩
  · cases h

theorem pathAndQuery_of_lookupOf {s : Server} {listener : Listener} {req : Request} {l : CacheLookup}
    (h : s.proxy.lookupOf listener req = some l) : l.pathAndQuery = req.uri.pathAndQueryOr := by
  cases listener with
  | http1 => exact (cacheLookup_eq_some h).2.1
  | http3 => exact (cacheLookup_eq_some h).2.1

section

variable {s : Server} {listener : Listener} {v : Visit} {matched : Route} {target : Target}

/-- HTTP/1 sends the rewritten path as it is parsed, unless it is lost, and then the client's. -/
theorem uri_upstreamRequest (s : Server) (v : Visit) (matched : Route) (target : Target) :
    (¬ s.RewriteLost .http1 v matched target → (ZaphylProxy.upstreamRequest s v matched target).uri =
      ((matched.rewritePath v.req.uri.path).map (fun path => parsedPathAndQuery (withQuery path v.req.uri.query))).getD
        v.req.uri.pathAndQueryOr) ∧
    (s.RewriteLost .http1 v matched target →
      (ZaphylProxy.upstreamRequest s v matched target).uri = v.req.uri.pathAndQueryOr) := by
  unfold Server.RewriteLost ZaphylProxy.upstreamRequest
  cases matched.rewritePath v.req.uri.path with
  | none => exact ⟨fun _ => rfl, fun _ => rfl⟩
  | some path =>
    simp only [Option.map_some, Option.getD_some]
    constructor
    · intro hkept
      rw [Option.filter_some_pos ((Bool.not_eq_false _).mp hkept)]
      rfl
    · intro hlost
      rw [Option.filter_some_neg hlost]
      rfl

/-- HTTP/3 asks behind the target's address for the rewritten path, unless it cannot forward the request. -/
theorem plainResource_http3 (h : ¬ Http3.Unforwardable s v matched target) :
    s.plainResource .http3 v matched target = some (resourceOf (behindAuthority (target.address ++
      withQuery ((matched.rewritePath v.req.uri.path).getD v.req.uri.path) v.req.uri.query))) := by
  have hrequest : s.plainRequest .http3 v matched target = some _ := Http3.upstreamRequest_of_forwardable h
  rw [Server.plainResource, hrequest, Option.map_some]
  congr 1
  exact resource_of_originUri ..

theorem pathMatches_of_upstreamRoute (hm : s.proxy.upstreamRoute listener v.req = some matched) :
    matched.pathMatches v.req.uri.path = true := by
  have hfound : ∀ host, s.proxy.router.matchRoute host v.req.uri.path = some matched →
      matched.pathMatches v.req.uri.path = true := by
    intro host h
    have hfirst : s.proxy.router.routes.find? (fun route => route.matches host v.req.uri.path) = some matched := h
    have hmatch := List.find?_some hfirst
    exact (Bool.and_eq_true_iff.1 hmatch).2
  cases listener with
  | http1 => exact hfound _ hm
  | http3 => exact hfound _ hm

/-- The client's path and query behind an address. -/
theorem resourceOf_behind_client {uri : Uri} {asked : Target} (hasked : asked.address.any endsAuthority = false)
    (hfragment : '#' ∉ uri.pathAndQueryOr) :
    resourceOf (behindAuthority (asked.address ++ uri.pathAndQueryOr)) = (rootedPath uri.path, uri.query) := by
  obtain ⟨hpath, -, hquery⟩ := not_mem_of_pathAndQueryOr hfragment
  rw [pathAndQueryOr_eq uri, resourceOf_behind hasked (Text.not_mem_before _ _) hpath hquery, rootedPath_before]

theorem resourceOf_behind_rewritten {uri : Uri} (hmatch : matched.pathMatches uri.path = true)
    (htarget : target.address.any endsAuthority = false) (hfragment : '#' ∉ uri.pathAndQueryOr) :
    resourceOf (behindAuthority
        (target.address ++ withQuery ((matched.rewritePath uri.path).getD uri.path) uri.query)) =
      (rootedPath ((matched.rewritePath uri.path).getD uri.path), uri.query) := by
  obtain ⟨-, hpath, hquery⟩ := not_mem_of_pathAndQueryOr hfragment
  refine resourceOf_behind htarget (not_mem_rewritten hmatch) (fun h => ?_) hquery
  · rcases rewritten_subset hmatch _ h with h | h
    · exact hpath h
    · exact absurd h (by decide)

end

section

variable {s : Server} {listener : Listener} {v : Visit} {matched : Route} {target : Target}

/-- The plain path asks for the client's path behind an authority exactly where the path is kept. -/
theorem plainResource_kept_iff (hmatch : matched.pathMatches v.req.uri.path = true)
    (htarget : target.address.any endsAuthority = false) (hfragment : '#' ∉ v.req.uri.pathAndQueryOr) :
    (∀ resource, s.plainResource listener v matched target = some resource →
        (rootedPath v.req.uri.path, v.req.uri.query) = resource) ↔
      s.PathKept listener v matched target := by
  cases listener with
  | http1 =>
    have hsent : s.plainResource .http1 v matched target =
      some (resourceOf (ZaphylProxy.upstreamRequest s v matched target).uri) := rfl
    obtain ⟨hkept, hlost⟩ := uri_upstreamRequest s v matched target
    simp only [hsent, Option.some.injEq, forall_eq']
    unfold Server.PathKept
    by_cases hlose : s.RewriteLost .http1 v matched target
    · rw [hlost hlose, resourceOf_pathAndQueryOr, Prod.mk.injEq, and_iff_left rfl, rootedPath_eq_iff]
      simp [hlose]
    · rw [hkept hlose, rewritten_kept_iff hmatch hfragment]
      simp [hlose]
  | http3 =>
    show _ ↔ matched.StripsNoSlash ∨ Http3.Unforwardable s v matched target
    by_cases hlose : Http3.Unforwardable s v matched target
    · refine iff_of_true (fun resource hsent => ?_) (.inr hlose)
      obtain ⟨request, hrequest, -⟩ := Option.map_eq_some_iff.1 hsent
      exact absurd hlose (Http3.not_unforwardable_of_some hrequest)
    · rw [plainResource_http3 hlose, resourceOf_behind_rewritten hmatch htarget hfragment, or_iff_left hlose]
      simp only [Option.some.injEq, forall_eq', Prod.mk.injEq, and_true]
      exact rootedPath_rewritten_iff hmatch

theorem plainResource_texts_iff {asked : Target} :
    (∀ resource, s.plainResource listener v matched target = some resource →
        resourceOf (behindAuthority (asked.address ++ v.req.uri.pathAndQueryOr)) = resource) ↔
      s.TextsAgree listener v matched asked target := by
  cases listener with
  | http1 =>
    have hsent : s.plainResource .http1 v matched target =
      some (resourceOf (ZaphylProxy.upstreamRequest s v matched target).uri) := rfl
    simp only [hsent, Option.some.injEq, forall_eq']
    exact Iff.rfl
  | http3 =>
    unfold Server.TextsAgree
    simp only [Option.getD_map]
    by_cases hlose : Http3.Unforwardable s v matched target
    · refine iff_of_true (fun resource hsent => ?_) (.inl hlose)
      obtain ⟨request, hrequest, -⟩ := Option.map_eq_some_iff.1 hsent
      exact absurd hlose (Http3.not_unforwardable_of_some hrequest)
    · rw [plainResource_http3 hlose]
      simp only [Option.some.injEq, forall_eq']
      exact (or_iff_right hlose).symm

end

/-- **A conditional request asks for the resource that the plain path asks for exactly where the two ask alike**: where
the route keeps the path or the rewritten path is lost, if the path is rooted and the addresses are whole. -/
theorem revalidates_same_resource_iff {s : Server} {listener : Listener} {v : Visit} {request : OriginRequest}
    (hrequest : s.Revalidates listener v request) {matched : Route}
    (hm : s.proxy.upstreamRoute listener v.req = some matched) (target : Target) :
    (∀ resource, s.plainResource listener v matched target = some resource → request.resource = resource) ↔
      s.AsksAlike listener v matched request.target target := by
  obtain ⟨l, asked, etag, hl, hconditional⟩ := hrequest.conditional
  obtain ⟨hasked, hresource⟩ := resource_conditional hconditional
  rw [hasked, hresource, pathAndQuery_of_lookupOf hl]
  by_cases hplain : PlainTexts v.req.uri asked target
  · rw [resourceOf_behind_client hplain.1 hplain.2.2,
      plainResource_kept_iff (pathMatches_of_upstreamRoute hm) hplain.2.1 hplain.2.2]
    exact ⟨fun h => ⟨fun _ => h, fun hcut => absurd hplain hcut⟩, fun h => h.plain hplain⟩
  · rw [plainResource_texts_iff]
    exact ⟨fun h => ⟨fun hwhole => absurd hwhole hplain, fun _ => h⟩, fun h => h.cut hplain⟩

/-! ## A stale page -/

/-- A server whose cache holds a stale page with a tag. -/
def stalePageServer (router : Router) (pathAndQuery : Str) : Server :=
  let page : CachedResponse := ⟨200, [("etag".toList, "v1".toList)], []⟩
  let key := cacheKey "a.test".toList pathAndQuery none
  { runningServer router with
    cache := some ((ResponseCache.new 8).put oneUpstream.hash Env.kept key firstSecond page) }

def pageVisit (pathAndQuery : Str) : Visit :=
  { visitOf { getPage "a.test".toList with uri := ⟨some "a.test".toList, some pathAndQuery⟩ } with now := thirdSecond }

/-- A route that forwards what is below `/api` without that prefix. -/
def apiRoute : Route :=
  (Route.new none (some "/api".toList) [Target.new "127.0.0.1:3000".toList false "127.0.0.1".toList]).withStripPrefix true

theorem plain_page_same_resource :
    ∃ request matched target, (stalePageServer oneUpstream.router ['/']).Revalidates .http1 (pageVisit ['/']) request ∧
      (stalePageServer oneUpstream.router ['/']).proxy.upstreamRoute .http1 (pageVisit ['/']).req = some matched ∧
      matched.nextTarget.1 = some target ∧
      ∀ resource, (stalePageServer oneUpstream.router ['/']).plainResource .http1 (pageVisit ['/']) matched target =
        some resource → request.resource = resource := by
  refine ⟨_, _, _, ⟨_, _, _, _, rfl, rfl, rfl, rfl⟩, rfl, rfl, ?_⟩
  refine (revalidates_same_resource_iff ⟨_, _, _, _, rfl, rfl, rfl, rfl⟩ rfl _).2 ⟨fun _ => ?_, fun hcut => ?_⟩
  · exact .inl ⟨.inr rfl, .inl (.inl rfl)⟩
  · exact absurd ⟨by decide, by decide, by decide⟩ hcut

def apiServer : Server := stalePageServer ⟨[apiRoute]⟩ "/api/page".toList

def apiVisit : Visit := pageVisit "/api/page".toList

/-- **A stale page below a stripped prefix is revalidated by another page**, on either listener. -/
theorem stripped_page_other_resource :
    (∀ listener, ∃ request matched target, apiServer.Revalidates listener apiVisit request ∧
      apiServer.proxy.upstreamRoute listener apiVisit.req = some matched ∧ matched.nextTarget.1 = some target ∧
      request.resource = ("/api/page".toList, none) ∧
      apiServer.plainResource listener apiVisit matched target = some ("/page".toList, none)) ∧
    ¬ ∀ (s : Server) (listener : Listener) (v : Visit) (request : OriginRequest) (matched : Route) (target : Target),
      s.Revalidates listener v request → s.proxy.upstreamRoute listener v.req = some matched →
      ∀ resource, s.plainResource listener v matched target = some resource → request.resource = resource := by
  have hpage : ∀ listener, ∃ request matched target, apiServer.Revalidates listener apiVisit request ∧
      apiServer.proxy.upstreamRoute listener apiVisit.req = some matched ∧ matched.nextTarget.1 = some target ∧
      request.resource = ("/api/page".toList, none) ∧
      apiServer.plainResource listener apiVisit matched target = some ("/page".toList, none) := by
    intro listener
    cases listener with
    | http1 => exact ⟨_, _, _, ⟨_, _, _, _, rfl, rfl, rfl, rfl⟩, rfl, rfl, rfl, rfl⟩
    | http3 => exact ⟨_, _, _, ⟨_, _, _, _, rfl, rfl, rfl, rfl⟩, rfl, rfl, rfl, rfl⟩
  refine ⟨hpage, fun hall => ?_⟩
  obtain ⟨request, matched, target, hrequest, hm, -, hresource, hplain⟩ := hpage .http1
  have hsame := hall _ _ _ _ _ _ hrequest hm _ hplain
  rw [hresource] at hsame
  exact absurd (congrArg Prod.fst hsame) (by decide)

end Zaphyl
