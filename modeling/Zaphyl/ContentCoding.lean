import Zaphyl.CachePolicy
import Zaphyl.FloatText
/-!
# ContentCoding — the codings a client accepts, against the key it shares

`accepts_coding` reads the weights of `Accept-Encoding`; the cache key keeps the coding names and drops the weights.
Two values that share a key name the same codings, and accept the same ones exactly when they give weight zero to the
same ones (`sharers_accept_same_iff`).
-/
namespace Zaphyl

open Text (trim before join asciiLower eqIgnoreAsciiCase)

def codingName (part : Str) : Str := trim (before ';' (trim part))

def zeroWeight (part : Str) : Bool :=
  ((trim part).splitOn ';').tail.any (fun field =>
    let q := trim field
    match (q.dropPrefix? "q=".toList).or (q.dropPrefix? "Q=".toList) with
    | some value => ((Text.FloatText.parse value).map Text.FloatText.isZero32).getD false
    | none => false)

/-- Whether an `Accept-Encoding` header accepts `coding` (listed with a non-zero quality). -/
def acceptsCoding (header coding : Str) : Bool :=
  (header.splitOn ',').any (fun part =>
    if !eqIgnoreAsciiCase (codingName part) coding then false else !zeroWeight part)

def refusedCodings (header : Str) : List Str :=
  (acceptTokens (some header)).filter (fun t =>
    (header.splitOn ',').all (fun part => asciiLower (codingName part) != t || zeroWeight part))

/-! ## The two readings of a value -/

theorem mem_acceptTokens_iff_codingName {h t : Str} :
    t ∈ acceptTokens (some h) ↔ t ≠ [] ∧ ∃ part ∈ h.splitOn ',', asciiLower (codingName part) = t := by
  have hname : ∀ part, codingName part = trim (before ';' part) := fun part => Text.trim_before_trim (by decide) part
  simp only [hname]
  exact mem_acceptTokens

theorem acceptsCoding_iff {header c : Str} :
    acceptsCoding header c = true ↔
      ∃ part ∈ header.splitOn ',', asciiLower (codingName part) = asciiLower c ∧ zeroWeight part = false := by
  unfold acceptsCoding
  rw [List.any_eq_true]
  refine exists_congr (fun part => and_congr_right (fun _ => ?_))
  rw [← Text.eqIgnoreAsciiCase_iff]
  cases eqIgnoreAsciiCase (codingName part) c <;> cases zeroWeight part <;> simp

theorem mem_refusedCodings {header t : Str} :
    t ∈ refusedCodings header ↔ t ∈ acceptTokens (some header) ∧
      ∀ part ∈ header.splitOn ',', asciiLower (codingName part) = t → zeroWeight part = true := by
  unfold refusedCodings
  rw [List.mem_filter, List.all_eq_true]
  refine and_congr_right (fun _ => forall₂_congr (fun part _ => ?_))
  rw [Bool.or_eq_true, bne_iff_ne, ne_eq, Decidable.imp_iff_not_or]

/-- **A coding is accepted when it is listed and not refused.** -/
theorem acceptsCoding_iff_listed {header c : Str} (hc : c ≠ []) :
    acceptsCoding header c = true ↔
      asciiLower c ∈ acceptTokens (some header) ∧ asciiLower c ∉ refusedCodings header := by
  have hlow : asciiLower c ≠ [] := by simpa [asciiLower] using hc
  rw [acceptsCoding_iff, mem_refusedCodings, mem_acceptTokens_iff_codingName]
  constructor
  · rintro ⟨part, hp, hname, hzero⟩
    refine ⟨⟨hlow, part, hp, hname⟩, fun h => ?_⟩
    rw [h.2 part hp hname] at hzero
    cases hzero
  · rintro ⟨hlisted, hnot⟩
    by_contra hnone
    refine hnot ⟨hlisted, fun part hp hname => ?_⟩
    by_contra hzero
    exact hnone ⟨part, hp, hname, by simpa using hzero⟩

theorem asciiLower_of_mem_acceptTokens {ae : Option Str} {t : Str} (h : t ∈ acceptTokens ae) : asciiLower t = t := by
  obtain ⟨-, part, -, rfl⟩ := mem_acceptTokens.1 h
  exact Text.asciiLower_asciiLower _

theorem trim_of_mem_acceptTokens {ae : Option Str} {t : Str} (h : t ∈ acceptTokens ae) : trim t = t := by
  obtain ⟨-, part, -, rfl⟩ := mem_acceptTokens.1 h
  rw [Text.trim_asciiLower, Text.trim_trim]

theorem semicolon_not_mem_acceptTokens {ae : Option Str} {t : Str} (h : t ∈ acceptTokens ae) : ';' ∉ t := by
  obtain ⟨-, part, -, rfl⟩ := mem_acceptTokens.1 h
  rw [Text.mem_asciiLower_iff (by decide) (by decide)]
  exact fun hm => Text.not_mem_before _ _ (Text.trim_subset _ hm)

/-! ## Values that share a key -/

theorem accepts_congr {a b : Str} (hkey : normalizeAcceptEncoding (some a) = normalizeAcceptEncoding (some b))
    (href : ∀ t, t ∈ refusedCodings a ↔ t ∈ refusedCodings b) {c : Str} (hc : c ≠ []) :
    acceptsCoding a c = acceptsCoding b c := by
  have hlist := (normalizeAcceptEncoding_eq_iff (some a) (some b)).1 hkey
  rw [Bool.eq_iff_iff, acceptsCoding_iff_listed hc, acceptsCoding_iff_listed hc, hlist, href]

theorem refused_congr {a b : Str} (hkey : normalizeAcceptEncoding (some a) = normalizeAcceptEncoding (some b))
    (hacc : ∀ c, c ≠ [] → acceptsCoding a c = acceptsCoding b c) (t : Str) :
    t ∈ refusedCodings a ↔ t ∈ refusedCodings b := by
  have hlist := (normalizeAcceptEncoding_eq_iff (some a) (some b)).1 hkey
  -- a listed coding is refused when it is not accepted
  have hrefused : ∀ {v : Str}, t ∈ acceptTokens (some v) →
      (t ∈ refusedCodings v ↔ ¬ acceptsCoding v t = true) := by
    intro v hv
    rw [acceptsCoding_iff_listed (mem_acceptTokens.1 hv).1, asciiLower_of_mem_acceptTokens hv]
    exact ⟨fun h hn => hn.2 h, fun h => by_contra fun hn => h ⟨hv, hn⟩⟩
  by_cases ht : t ∈ acceptTokens (some a)
  · rw [hrefused ht, hrefused ((hlist t).1 ht), hacc t (mem_acceptTokens.1 ht).1]
  · have ht' : t ∉ acceptTokens (some b) := fun h => ht ((hlist t).2 h)
    exact ⟨fun h => absurd (mem_refusedCodings.1 h).1 ht, fun h => absurd (mem_refusedCodings.1 h).1 ht'⟩

theorem refusedCodings_eq_nil {header : Str} (h : ∀ part ∈ header.splitOn ',', zeroWeight part = false) (t : Str) :
    t ∉ refusedCodings header := by
  intro ht
  obtain ⟨hlisted, hzero⟩ := mem_refusedCodings.1 ht
  obtain ⟨-, part, hp, hname⟩ := mem_acceptTokens_iff_codingName.1 hlisted
  have hz := hzero part hp hname
  rw [h part hp] at hz
  cases hz

/-! ## Every listed coding can be refused by a sharer -/

/-- The codings of a value, each with the same parameters. -/
def reweighted (params header : Str) : Str := join ',' ((acceptTokens (some header)).map (· ++ params))

theorem splitOn_reweighted {params header : Str} (hp : ',' ∉ params) (hne : acceptTokens (some header) ≠ []) :
    (reweighted params header).splitOn ',' = (acceptTokens (some header)).map (· ++ params) := by
  unfold reweighted join
  refine List.splitOn_intercalate ',' (fun l hl => ?_) (by simpa using hne)
  obtain ⟨t, ht, rfl⟩ := List.mem_map.1 hl
  rw [List.mem_append, not_or]
  exact ⟨comma_not_mem_acceptTokens ht, hp⟩

theorem codingName_reweighted {header t params : Str} (ht : t ∈ acceptTokens (some header))
    (hp : params = [] ∨ ∃ p, params = ';' :: p) : asciiLower (codingName (t ++ params)) = t := by
  have hname : codingName (t ++ params) = trim (before ';' (t ++ params)) := Text.trim_before_trim (by decide) _
  have hbefore : before ';' (t ++ params) = t := by
    rcases hp with rfl | ⟨p, rfl⟩
    · rw [List.append_nil, Text.before_of_not_mem (semicolon_not_mem_acceptTokens ht)]
    · exact Text.before_append_cons (semicolon_not_mem_acceptTokens ht) p
  rw [hname, hbefore, trim_of_mem_acceptTokens ht, asciiLower_of_mem_acceptTokens ht]

/-- **A reweighted value shares the key.** -/
theorem normalize_reweighted {params header : Str} (hc : ',' ∉ params) (hp : params = [] ∨ ∃ p, params = ';' :: p)
    (hne : acceptTokens (some header) ≠ []) :
    normalizeAcceptEncoding (some header) = normalizeAcceptEncoding (some (reweighted params header)) := by
  rw [normalizeAcceptEncoding_eq_iff]
  intro t
  have hmem := mem_acceptTokens_iff_codingName (h := reweighted params header) (t := t)
  rw [hmem, splitOn_reweighted hc hne]
  constructor
  · intro ht
    exact ⟨(mem_acceptTokens.1 ht).1, t ++ params, List.mem_map_of_mem ht, codingName_reweighted ht hp⟩
  · rintro ⟨-, part, hpart, rfl⟩
    obtain ⟨u, hu, rfl⟩ := List.mem_map.1 hpart
    rwa [codingName_reweighted hu hp]

theorem zeroWeight_bare {header t : Str} (ht : t ∈ acceptTokens (some header)) : zeroWeight (t ++ []) = false := by
  unfold zeroWeight
  rw [List.append_nil, trim_of_mem_acceptTokens ht, List.splitOn_eq_singleton (semicolon_not_mem_acceptTokens ht)]
  rfl

theorem zeroWeight_refused {header t : Str} (ht : t ∈ acceptTokens (some header)) :
    zeroWeight (t ++ ";q=0".toList) = true := by
  have htrim : trim (t ++ ";q=0".toList) = t ++ ";q=0".toList := by
    have hstart : Text.trimStart (t ++ ";q=0".toList) = t ++ ";q=0".toList := by
      cases t with
      | nil => exact absurd rfl (mem_acceptTokens.1 ht).1
      | cons c t =>
        refine Text.trimStart_cons_self (Text.head_trim (s := c :: t) ?_) _
        rw [trim_of_mem_acceptTokens ht]
        rfl
    unfold trim
    rw [hstart]
    have hlast : t ++ ";q=0".toList = (t ++ ";q=".toList) ++ ['0'] := by simp
    rw [hlast]
    exact Text.trimEnd_append_singleton (by decide) _
  have hcons : t ++ ";q=0".toList = t ++ ';' :: "q=0".toList := rfl
  unfold zeroWeight
  rw [htrim, hcons, List.splitOn_append_cons_self_of_not_mem (semicolon_not_mem_acceptTokens ht),
    List.tail_cons]
  decide

/-- A value that lists a coding has a sharer that decides it the other way. -/
theorem exists_sharer_disagreeing {a t : Str} (ht : t ∈ acceptTokens (some a)) :
    ∃ b, normalizeAcceptEncoding (some a) = normalizeAcceptEncoding (some b) ∧
      acceptsCoding a t ≠ acceptsCoding b t := by
  have hne : acceptTokens (some a) ≠ [] := List.ne_nil_of_mem ht
  have hlow := asciiLower_of_mem_acceptTokens ht
  cases hacc : acceptsCoding a t with
  | true =>
    have hc : ',' ∉ ";q=0".toList := by decide
    refine ⟨reweighted ";q=0".toList a, normalize_reweighted hc (Or.inr ⟨"q=0".toList, rfl⟩) hne, fun h => ?_⟩
    obtain ⟨part, hpart, -, hzero⟩ := acceptsCoding_iff.1 h.symm
    rw [splitOn_reweighted hc hne] at hpart
    obtain ⟨u, hu, rfl⟩ := List.mem_map.1 hpart
    rw [zeroWeight_refused hu] at hzero
    cases hzero
  | false =>
    have hc : ',' ∉ ([] : Str) := by simp
    refine ⟨reweighted [] a, normalize_reweighted hc (Or.inl rfl) hne, fun h => ?_⟩
    have hyes : acceptsCoding (reweighted [] a) t = true := by
      rw [acceptsCoding_iff, splitOn_reweighted hc hne]
      refine ⟨t ++ [], List.mem_map_of_mem ht, ?_, zeroWeight_bare ht⟩
      rw [codingName_reweighted ht (Or.inl rfl), hlow]
    rw [hyes] at h
    cases h

/-- **Two values that share a key accept the same codings exactly when they refuse the same ones**; they do when
neither has a member of weight zero, and only a value that lists no coding agrees with every value it shares a key
with. -/
theorem sharers_accept_same_iff (a b : Str) :
    ((normalizeAcceptEncoding (some a) = normalizeAcceptEncoding (some b) →
        ∀ c, c ≠ [] → acceptsCoding a c = acceptsCoding b c) ↔
      (normalizeAcceptEncoding (some a) = normalizeAcceptEncoding (some b) →
        ∀ t, t ∈ refusedCodings a ↔ t ∈ refusedCodings b)) ∧
    ((∀ part ∈ a.splitOn ',' ++ b.splitOn ',', zeroWeight part = false) →
      normalizeAcceptEncoding (some a) = normalizeAcceptEncoding (some b) →
        ∀ c, c ≠ [] → acceptsCoding a c = acceptsCoding b c) ∧
    ((∀ v, normalizeAcceptEncoding (some a) = normalizeAcceptEncoding (some v) →
        ∀ c, c ≠ [] → acceptsCoding a c = acceptsCoding v c) ↔ acceptTokens (some a) = []) := by
  refine ⟨⟨fun h hkey => refused_congr hkey (h hkey), fun h hkey c hc => accepts_congr hkey (h hkey) hc⟩, ?_, ?_⟩
  · intro hzero hkey c hc
    have ha := refusedCodings_eq_nil (fun part hp => hzero part (List.mem_append_left _ hp))
    have hb := refusedCodings_eq_nil (fun part hp => hzero part (List.mem_append_right _ hp))
    exact accepts_congr hkey (fun t => iff_of_false (ha t) (hb t)) hc
  · constructor
    · intro h
      by_contra hne
      obtain ⟨t, ht⟩ := List.exists_mem_of_ne_nil _ hne
      obtain ⟨v, hkey, hdiff⟩ := exists_sharer_disagreeing ht
      exact hdiff (h v hkey t (mem_acceptTokens.1 ht).1)
    · intro hnil v hkey c hc
      have hlist := (normalizeAcceptEncoding_eq_iff (some a) (some v)).1 hkey
      have hno : ∀ t, t ∉ acceptTokens (some a) := fun t => by rw [hnil]; simp
      rw [Bool.eq_iff_iff, acceptsCoding_iff_listed hc, acceptsCoding_iff_listed hc]
      exact iff_of_false (fun h => hno _ h.1) (fun h => hno _ ((hlist _).2 h.1))

/-- **A client that refuses gzip shares the key of one that accepts it.** -/
theorem sharer_refuses_gzip :
    normalizeAcceptEncoding (some "gzip".toList) = normalizeAcceptEncoding (some "gzip;q=0".toList) ∧
      acceptsCoding "gzip".toList "gzip".toList = true ∧ acceptsCoding "gzip;q=0".toList "gzip".toList = false := by
  decide

end Zaphyl
