import Zaphyl.Freshness
/-!
# DirectiveCase — Cache-Control in any letter case

The name of a directive is the same in any letter case, and the two parsers of `Cache-Control` compare it with names in
lower case.  A value is treated like its respellings only where it names neither `no-store` nor `no-cache` and declares
no age, in any case (`honoured_iff`): whatever the parsers act upon, another case hides from them.
-/
namespace Zaphyl

open Text (trim before join asciiLower asciiUpper eqIgnoreAsciiCase)

/-! ## Respellings -/

/-- Two members of a list that differ in the letter case of their names at most. -/
def SameButCase (p q : Str) : Prop :=
  ∃ name name' rest, p = name ++ rest ∧ q = name' ++ rest ∧ '=' ∉ name ∧ asciiLower name' = asciiLower name ∧
    (rest ≠ [] → rest.head? = some '=')

/-- Two values that differ in the letter case of directive names at most. -/
def CaseVariant (value value' : Str) : Prop := List.Forall₂ SameButCase (value.splitOn ',') (value'.splitOn ',')

def directiveName (part : Str) : Str := trim (before '=' part)

/-- A member with another spelling of its name. -/
def respell (f : Str → Str) (part : Str) : Str := f (before '=' part) ++ part.dropWhile (· != '=')

/-- A member of the value has that name, in any letter case. -/
def Names (value directive : Str) : Prop :=
  ∃ part ∈ value.splitOn ',', eqIgnoreAsciiCase (directiveName part) directive = true

/-- A directive `max-age=n`, its name in any letter case. -/
def AgeInAnyCase (part : Str) (n : Nat) : Prop :=
  ∃ name number, part = name ++ '=' :: number ∧ '=' ∉ name ∧
    asciiLower (Text.trimStart name) = "max-age".toList ∧ Text.parseUnsigned (2 ^ 64) (trim number) = some n

/-- **The directives of a value are honoured whatever their case**: those that forbid storing or answering from the
cache forbid it, and no respelling changes a lifetime or a decision. -/
structure Honoured (value : Str) : Prop where
  response : ∀ d ∈ ["no-store".toList, "no-cache".toList, "private".toList], Names value d →
    ∀ status hasSetCookie vary, responseTtl status (some value) hasSetCookie vary = none
  request : ∀ d ∈ ["no-store".toList, "no-cache".toList], Names value d →
    ∀ method hasAuthorization, requestCacheable method (some value) hasAuthorization = false
  respelled : ∀ value', CaseVariant value value' →
    (∀ status hasSetCookie vary,
      responseTtl status (some value') hasSetCookie vary = responseTtl status (some value) hasSetCookie vary) ∧
    ∀ method hasAuthorization,
      requestCacheable method (some value') hasAuthorization = requestCacheable method (some value) hasAuthorization

/-! ## Members as a name and what follows it -/

theorem exists_name_rest (p : Str) :
    ∃ name rest, p = name ++ rest ∧ '=' ∉ name ∧ (rest ≠ [] → rest.head? = some '=') := by
  refine ⟨before '=' p, p.dropWhile (· != '='), List.takeWhile_append_dropWhile.symm, Text.not_mem_before _ _, ?_⟩
  intro hrest
  obtain ⟨c, cs, hcs⟩ := List.exists_cons_of_ne_nil hrest
  have hhead := List.head?_dropWhile_not (· != '=') p
  rw [hcs, List.head?_cons] at hhead
  rw [hcs, List.head?_cons]
  simpa using hhead

section
variable {name rest : Str} (hname : '=' ∉ name) (hrest : rest ≠ [] → rest.head? = some '=')
include hname hrest

theorem before_name_rest : before '=' (name ++ rest) = name := by
  cases rest with
  | nil => rw [List.append_nil, Text.before_of_not_mem hname]
  | cons c rest =>
    have hc : c = '=' := by simpa using hrest (List.cons_ne_nil _ _)
    rw [hc, Text.before_append_cons hname]

theorem respell_name_rest (f : Str → Str) : respell f (name ++ rest) = f name ++ rest := by
  have hsplit : before '=' (name ++ rest) ++ (name ++ rest).dropWhile (· != '=') = name ++ rest :=
    List.takeWhile_append_dropWhile
  rw [before_name_rest hname hrest] at hsplit
  rw [respell, before_name_rest hname hrest, List.append_cancel_left hsplit]

end

theorem equals_not_mem_of_asciiLower {name name' : Str} (hname : '=' ∉ name) (h : asciiLower name' = asciiLower name) :
    '=' ∉ name' := by
  rw [← Text.mem_asciiLower_iff (by decide) (by decide), h, Text.mem_asciiLower_iff (by decide) (by decide)]
  exact hname

theorem sameButCase_respell {f : Str → Str} (hf : ∀ s, asciiLower (f s) = asciiLower s) (p : Str) :
    SameButCase p (respell f p) := by
  obtain ⟨name, rest, rfl, hname, hrest⟩ := exists_name_rest p
  exact ⟨name, f name, rest, rfl, respell_name_rest hname hrest f, hname, hf name, hrest⟩

namespace SameButCase

theorem refl (p : Str) : SameButCase p p := by
  obtain ⟨name, rest, rfl, hname, hrest⟩ := exists_name_rest p
  exact ⟨name, name, rest, rfl, rfl, hname, rfl, hrest⟩

/-- A name keeps its lower case. -/
theorem asciiLower_directiveName {p q : Str} (h : SameButCase p q) :
    asciiLower (directiveName q) = asciiLower (directiveName p) := by
  obtain ⟨name, name', rest, rfl, rfl, hname, hcase, hrest⟩ := h
  have hname' := equals_not_mem_of_asciiLower hname hcase
  unfold directiveName
  rw [before_name_rest hname hrest, before_name_rest hname' hrest, ← Text.trim_asciiLower, ← Text.trim_asciiLower, hcase]

theorem ageInAnyCase {p q : Str} (h : SameButCase p q) {n : Nat} (hq : AgeInAnyCase q n) : AgeInAnyCase p n := by
  obtain ⟨name, name', rest, rfl, rfl, hname, hcase, hrest⟩ := h
  obtain ⟨key, number, hq, hkey, hage, hnumber⟩ := hq
  have hname' := equals_not_mem_of_asciiLower hname hcase
  have hsame : name' = key := by
    have hbefore := before_name_rest hname' hrest
    rw [hq, Text.before_append_cons hkey] at hbefore
    exact hbefore.symm
  subst hsame
  have hrest' : rest = '=' :: number := List.append_cancel_left hq
  refine ⟨name, number, by rw [hrest'], hname, ?_, hnumber⟩
  rw [← Text.trimStart_asciiLower, ← hcase, Text.trimStart_asciiLower, hage]

theorem comma_not_mem {p q : Str} (h : SameButCase p q) (hp : ',' ∉ p) : ',' ∉ q := by
  obtain ⟨name, name', rest, rfl, rfl, -, hcase, -⟩ := h
  rw [List.mem_append, not_or] at hp ⊢
  refine ⟨?_, hp.2⟩
  rw [← Text.mem_asciiLower_iff (by decide) (by decide), hcase, Text.mem_asciiLower_iff (by decide) (by decide)]
  exact hp.1

end SameButCase

theorem CaseVariant.refl (value : Str) : CaseVariant value value := List.forall₂_same.2 (fun p _ => SameButCase.refl p)

/-- **Respelled members make a respelled value.** -/
theorem caseVariant_join {value : Str} {ps : List Str} (h : List.Forall₂ SameButCase (value.splitOn ',') ps) :
    CaseVariant value (join ',' ps) ∧ (join ',' ps).splitOn ',' = ps := by
  have hsplit : (join ',' ps).splitOn ',' = ps := by
    refine List.splitOn_intercalate ',' (fun q hq => ?_) ?_
    · obtain ⟨i, hi, rfl⟩ := List.getElem_of_mem hq
      have hlen := h.length_eq
      have hi' : i < (value.splitOn ',').length := by omega
      have hsame : SameButCase (value.splitOn ',')[i] ps[i] := h.get hi' hi
      exact hsame.comma_not_mem (Text.not_mem_of_mem_splitOn (List.getElem_mem hi'))
    · rintro rfl
      exact List.splitOn_ne_nil ',' value (List.forall₂_nil_right_iff.1 h)
  exact ⟨by rw [CaseVariant, hsplit]; exact h, hsplit⟩

/-! ## What the parsers see -/

theorem hasDirective_iff (value directive : Str) :
    hasDirective (some value) directive = true ↔ ∃ part ∈ value.splitOn ',', directiveName part = directive := by
  have hname : ∀ part, trim (before '=' (trim part)) = directiveName part := fun part =>
    Text.trim_before_trim (by decide) part
  unfold hasDirective
  simp only [List.any_eq_true, beq_iff_eq, hname]

/-- The parser's age is one whose name is in lower case. -/
theorem ageOf_iff_lower (part : Str) (n : Nat) :
    AgeOf part n ↔ ∃ name number, part = name ++ '=' :: number ∧ '=' ∉ name ∧
      Text.trimStart name = "max-age".toList ∧ Text.parseUnsigned (2 ^ 64) (trim number) = some n := by
  have hvisible : Text.isWhitespace '=' = false := by decide
  have hkey : '=' ∉ "max-age".toList := by decide
  constructor
  · rintro ⟨rest, htrim, hparse⟩
    have hmem : '=' ∈ part := Text.trim_subset _ (by rw [htrim]; simp)
    obtain ⟨name, number, rfl, hname⟩ := List.eq_append_cons_of_mem hmem
    rw [Text.trim_append_cons hvisible] at htrim
    have hstart : '=' ∉ Text.trimStart name := fun h => hname ((List.dropWhile_suffix _).subset h)
    have heq : Text.trimStart name ++ '=' :: Text.trimEnd number = "max-age".toList ++ '=' :: rest := htrim
    have hlower : Text.trimStart name = "max-age".toList := by
      rw [← Text.before_append_cons hstart (Text.trimEnd number), heq, Text.before_append_cons hkey]
    rw [hlower] at heq
    have hrest : Text.trimEnd number = rest := by simpa using List.append_cancel_left heq
    exact ⟨name, number, rfl, hname, hlower, by rw [← Text.trim_trimEnd, hrest, hparse]⟩
  · rintro ⟨name, number, rfl, -, hlower, hparse⟩
    refine ⟨Text.trimEnd number, ?_, by rw [Text.trim_trimEnd, hparse]⟩
    rw [Text.trim_append_cons hvisible, hlower]
    rfl

theorem ageInAnyCase_of_ageOf {part : Str} {n : Nat} (h : AgeOf part n) : AgeInAnyCase part n := by
  obtain ⟨name, number, rfl, hname, hlower, hparse⟩ := (ageOf_iff_lower part n).1 h
  refine ⟨name, number, rfl, hname, ?_, hparse⟩
  rw [hlower]
  decide

/-- In lower case the parser sees the age. -/
theorem ageOf_respell_lower {part : Str} {n : Nat} (h : AgeInAnyCase part n) : AgeOf (respell asciiLower part) n := by
  obtain ⟨name, number, rfl, hname, hlower, hparse⟩ := h
  rw [respell_name_rest hname (fun _ => rfl), ageOf_iff_lower]
  refine ⟨asciiLower name, number, rfl, ?_, ?_, hparse⟩
  · exact equals_not_mem_of_asciiLower hname (Text.asciiLower_asciiLower name)
  · rw [Text.trimStart_asciiLower, hlower]

/-- In upper case a name has no lower-case letter. -/
theorem not_mem_directiveName_upper {d : Char} (hd : 97 ≤ d.toNat ∧ d.toNat ≤ 122) (part : Str) :
    d ∉ directiveName (respell asciiUpper part) := by
  obtain ⟨name, rest, rfl, hname, hrest⟩ := exists_name_rest part
  have hupper := equals_not_mem_of_asciiLower hname (Text.asciiLower_asciiUpper name)
  rw [respell_name_rest hname hrest, directiveName, before_name_rest hupper hrest]
  exact fun h => Text.not_mem_asciiUpper hd name (Text.trim_subset _ h)

theorem directiveName_upper_ne {directive : Str} {d : Char} (hd : 97 ≤ d.toNat ∧ d.toNat ≤ 122) (hmem : d ∈ directive)
    (part : Str) : directiveName (respell asciiUpper part) ≠ directive := fun h =>
  not_mem_directiveName_upper hd part (h ▸ hmem)

theorem directiveName_of_ageOf {part : Str} {n : Nat} (h : AgeOf part n) : directiveName part = "max-age".toList := by
  obtain ⟨name, number, rfl, hname, hlower, -⟩ := (ageOf_iff_lower part n).1 h
  unfold directiveName Text.trim
  rw [Text.before_append_cons hname, hlower]
  decide

theorem not_ageOf_upper (part : Str) (n : Nat) : ¬ AgeOf (respell asciiUpper part) n := fun h =>
  directiveName_upper_ne (d := 'm') (by decide) (by decide) part (directiveName_of_ageOf h)

/-! ## Values that say nothing -/

theorem CaseVariant.mem {value value' : Str} (h : CaseVariant value value') {q : Str} (hq : q ∈ value'.splitOn ',') :
    ∃ p ∈ value.splitOn ',', SameButCase p q := by
  obtain ⟨i, hi, rfl⟩ := List.getElem_of_mem hq
  have hlen := List.Forall₂.length_eq h
  have hi' : i < (value.splitOn ',').length := by omega
  exact ⟨_, List.getElem_mem hi', List.Forall₂.get h hi' hi⟩

/-- No respelling of a value that does not name the directive names it. -/
theorem hasDirective_of_not_names {value value' directive : Str} (h : CaseVariant value value')
    (hnot : ¬ Names value directive) : hasDirective (some value') directive = false := by
  rw [Bool.eq_false_iff]
  intro hdirective
  obtain ⟨q, hq, hname⟩ := (hasDirective_iff value' directive).1 hdirective
  obtain ⟨p, hp, hsame⟩ := h.mem hq
  refine hnot ⟨p, hp, (Text.eqIgnoreAsciiCase_iff _ _).2 ?_⟩
  rw [← hsame.asciiLower_directiveName, hname]

/-- No respelling of a value that declares no age has a lifetime. -/
theorem responseTtl_of_no_age {value value' : Str} (h : CaseVariant value value')
    (hage : ∀ part ∈ value.splitOn ',', ∀ n, AgeInAnyCase part n → n = 0) (status : UInt16) (hasSetCookie : Bool)
    (vary : Option Str) : responseTtl status (some value') hasSetCookie vary = none := by
  rw [Option.eq_none_iff_forall_ne_some]
  intro ttl httl
  obtain ⟨-, -, hmax, hpos⟩ := responseTtl_eq_some_iff.1 httl
  obtain ⟨v, earlier, part, later, hv, hsplit, hpart, -⟩ := (maxAge_eq_some_iff _ _).1 hmax
  cases hv
  obtain ⟨p, hp, hsame⟩ := h.mem (q := part) (by rw [hsplit]; simp)
  have hzero := hage p hp ttl (hsame.ageInAnyCase (ageInAnyCase_of_ageOf hpart))
  rw [hzero] at hpos
  exact Nat.lt_irrefl 0 hpos

/-! ## Values that are respelled -/

section
variable {value : Str}

theorem sameButCase_upper (ps : List Str) : List.Forall₂ SameButCase ps (ps.map (respell asciiUpper)) := by
  rw [List.forall₂_map_right_iff]
  exact List.forall₂_same.2 (fun p _ => sameButCase_respell Text.asciiLower_asciiUpper p)

/-- Every name in upper case: the parsers see nothing. -/
theorem exists_shout (value : Str) : ∃ value', CaseVariant value value' ∧
    value'.splitOn ',' = (value.splitOn ',').map (respell asciiUpper) :=
  ⟨_, caseVariant_join (sameButCase_upper (value.splitOn ','))⟩

theorem hasDirective_shout {value' directive : Str}
    (hsplit : value'.splitOn ',' = (value.splitOn ',').map (respell asciiUpper)) {d : Char}
    (hd : 97 ≤ d.toNat ∧ d.toNat ≤ 122) (hmem : d ∈ directive) : hasDirective (some value') directive = false := by
  rw [Bool.eq_false_iff]
  intro h
  obtain ⟨q, hq, hname⟩ := (hasDirective_iff value' directive).1 h
  rw [hsplit] at hq
  obtain ⟨p, -, rfl⟩ := List.mem_map.1 hq
  exact directiveName_upper_ne hd hmem p hname

theorem responseTtl_shout {value' : Str} (hsplit : value'.splitOn ',' = (value.splitOn ',').map (respell asciiUpper)) :
    responseTtl 200 (some value') false none = none := by
  rw [Option.eq_none_iff_forall_ne_some]
  intro ttl httl
  obtain ⟨-, -, hmax, -⟩ := responseTtl_eq_some_iff.1 httl
  obtain ⟨v, earlier, q, later, hv, hfound, hq, -⟩ := (maxAge_eq_some_iff _ _).1 hmax
  cases hv
  have hmem : q ∈ (value.splitOn ',').map (respell asciiUpper) := by rw [← hsplit, hfound]; simp
  obtain ⟨p, -, rfl⟩ := List.mem_map.1 hmem
  exact not_ageOf_upper p ttl hq

/-- One member's name in lower case, the others' in upper case. -/
theorem exists_whisper {part : Str} (hpart : part ∈ value.splitOn ',') :
    ∃ (earlier later : List Str) (value' : Str), CaseVariant value value' ∧ value'.splitOn ',' =
      earlier.map (respell asciiUpper) ++ respell asciiLower part :: later.map (respell asciiUpper) := by
  obtain ⟨earlier, later, hsplit⟩ := List.append_of_mem hpart
  refine ⟨earlier, later, _, caseVariant_join ?_⟩
  rw [hsplit]
  exact List.rel_append (sameButCase_upper earlier)
    (.cons (sameButCase_respell Text.asciiLower_asciiLower part) (sameButCase_upper later))

section
variable {part value' : Str} {earlier later : List Str}
  (hsplit : value'.splitOn ',' =
    earlier.map (respell asciiUpper) ++ respell asciiLower part :: later.map (respell asciiUpper))
include hsplit

theorem hasDirective_whisper {directive : Str} {d : Char} (hd : 97 ≤ d.toNat ∧ d.toNat ≤ 122) (hmem : d ∈ directive)
    (hother : directiveName (respell asciiLower part) ≠ directive) : hasDirective (some value') directive = false := by
  rw [Bool.eq_false_iff]
  intro hdirective
  obtain ⟨q, hq, hname⟩ := (hasDirective_iff value' directive).1 hdirective
  rw [hsplit] at hq
  rcases List.mem_append.1 hq with hq | hq
  · obtain ⟨p, -, rfl⟩ := List.mem_map.1 hq
    exact directiveName_upper_ne hd hmem p hname
  · rcases List.mem_cons.1 hq with rfl | hq
    · exact hother hname
    · obtain ⟨p, -, rfl⟩ := List.mem_map.1 hq
      exact directiveName_upper_ne hd hmem p hname

/-- The age alone in lower case is the lifetime. -/
theorem responseTtl_whisper {n : Nat} (hage : AgeInAnyCase part n) (hpos : 0 < n) :
    responseTtl 200 (some value') false none = some n := by
  have hlower := ageOf_respell_lower hage
  have hname := directiveName_of_ageOf hlower
  refine responseTtl_eq_some_iff.2 ⟨⟨rfl, rfl, rfl⟩, ⟨?_, ?_, ?_⟩, ?_, hpos⟩
  · exact hasDirective_whisper hsplit (d := 'o') (by decide) (by decide) (by rw [hname]; decide)
  · exact hasDirective_whisper hsplit (d := 'o') (by decide) (by decide) (by rw [hname]; decide)
  · exact hasDirective_whisper hsplit (d := 'r') (by decide) (by decide) (by rw [hname]; decide)
  · refine (maxAge_eq_some_iff _ _).2 ⟨value', _, _, _, rfl, hsplit, hlower, fun q hq m hm => ?_⟩
    obtain ⟨p, -, rfl⟩ := List.mem_map.1 hq
    exact not_ageOf_upper p m hm

end

/-- An honoured value names no directive that forbids a cached answer. -/
theorem Honoured.not_names (h : Honoured value) {directive : Str}
    (hd : directive ∈ ["no-store".toList, "no-cache".toList]) : ¬ Names value directive := by
  intro hnames
  obtain ⟨value', hvariant, hsplit⟩ := exists_shout value
  have hrefused := h.request directive hd hnames "GET".toList false
  have hsame := (h.respelled value' hvariant).2 "GET".toList false
  have hstore : hasDirective (some value') "no-store".toList = false :=
    hasDirective_shout (d := 'n') hsplit (by decide) (by decide)
  have hcache : hasDirective (some value') "no-cache".toList = false :=
    hasDirective_shout (d := 'n') hsplit (by decide) (by decide)
  rw [hrefused, requestCacheable, hstore, hcache] at hsame
  revert hsame
  decide

/-- An honoured value declares no age. -/
theorem Honoured.no_age (h : Honoured value) {part : Str} (hpart : part ∈ value.splitOn ',') {n : Nat}
    (hage : AgeInAnyCase part n) : n = 0 := by
  by_contra hne
  -- with every name in upper case there is no lifetime, with the age alone in lower case there is one
  obtain ⟨shouted, hshouted, hshout⟩ := exists_shout value
  obtain ⟨earlier, later, whispered, hwhispered, hwhisper⟩ := exists_whisper hpart
  have hnone := responseTtl_shout hshout
  have hsome := responseTtl_whisper hwhisper hage (Nat.pos_of_ne_zero hne)
  have hsame := (h.respelled whispered hwhispered).1 200 false none
  rw [← (h.respelled shouted hshouted).1 200 false none, hnone, hsome] at hsame
  cases hsame

end

/-- **A value is honoured in any case exactly when the parsers have nothing to act upon**: it names neither `no-store`
nor `no-cache` and declares no age, in any case. -/
theorem honoured_iff (value : Str) :
    Honoured value ↔ ¬ Names value "no-store".toList ∧ ¬ Names value "no-cache".toList ∧
      ∀ part ∈ value.splitOn ',', ∀ n, AgeInAnyCase part n → n = 0 := by
  constructor
  · intro h
    exact ⟨h.not_names (by simp), h.not_names (by simp), fun part hpart n hage => h.no_age hpart hage⟩
  · rintro ⟨hstore, hcache, hage⟩
    have hself := CaseVariant.refl value
    refine ⟨fun d _ _ status sc vary => responseTtl_of_no_age hself hage status sc vary, ?_, fun value' hv => ⟨?_, ?_⟩⟩
    · intro d hd hnames
      rcases List.mem_cons.1 hd with rfl | hd
      · exact absurd hnames hstore
      · rw [List.mem_singleton.1 hd] at hnames
        exact absurd hnames hcache
    · intro status sc vary
      rw [responseTtl_of_no_age hv hage, responseTtl_of_no_age hself hage]
    · intro method auth
      unfold requestCacheable
      rw [hasDirective_of_not_names hv hstore, hasDirective_of_not_names hv hcache,
        hasDirective_of_not_names hself hstore, hasDirective_of_not_names hself hcache]

/-- **A private page with its directive capitalised is stored, and `No-Store` is answered from the cache.** -/
theorem capitalised_directives_ignored :
    Names "Private, max-age=60".toList "private".toList ∧
      responseTtl 200 (some "Private, max-age=60".toList) false none = some 60 ∧
      Names "No-Store".toList "no-store".toList ∧
      requestCacheable "GET".toList (some "No-Store".toList) false = true := by
  refine ⟨⟨"Private".toList, by decide, by decide⟩, by decide, ⟨"No-Store".toList, by decide, by decide⟩, by decide⟩

end Zaphyl
