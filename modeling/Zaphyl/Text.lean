import Mathlib.Data.Char
import Mathlib.Data.List.DropRight
import Mathlib.Data.List.Lex
import Mathlib.Data.List.Sort
import Mathlib.Data.List.Destutter
/-!
# Text — string slices as lists of characters

A string slice is the list of its Unicode scalar values.  The operations a header parser needs are here: trimming,
cutting at a separator, splitting and joining, ASCII case folding, the integer parser, and the canonical list
(sorted, without repetitions) of a set of strings.
-/

abbrev Str := List Char

namespace Text

/-- The Unicode `White_Space` property, which `trim` cuts at both ends. -/
def isWhitespace (c : Char) : Bool :=
  let n := c.toNat
  (9 ≤ n && n ≤ 13) || n == 32 || n == 0x85 || n == 0xA0 || n == 0x1680 || (0x2000 ≤ n && n ≤ 0x200A) ||
    n == 0x2028 || n == 0x2029 || n == 0x202F || n == 0x205F || n == 0x3000

def trimStart (s : Str) : Str := s.dropWhile isWhitespace

def trimEnd (s : Str) : Str := s.rdropWhile isWhitespace

def trim (s : Str) : Str := trimEnd (trimStart s)

/-- ASCII lower case; `Char.toLower` changes `A` to `Z` only. -/
def asciiLower (s : Str) : Str := s.map Char.toLower

def eqIgnoreAsciiCase (a b : Str) : Bool := asciiLower a == asciiLower b

/-- What stands before the first `c`, all of `s` when there is none: the first piece of a split at `c`. -/
def before (c : Char) (s : Str) : Str := s.takeWhile (· != c)

/-- Cut at the last `c`: what stands before it and what stands after it. -/
def rsplitOnce (c : Char) (s : Str) : Option (Str × Str) :=
  if c ∈ s then
    let after := s.reverse.takeWhile (· != c)
    some ((s.reverse.drop (after.length + 1)).reverse, after.reverse)
  else none

/-- The value of a non-empty run of decimal digits. -/
def digits (s : Str) : Option Nat :=
  if s ≠ [] ∧ s.all Char.isDigit then some (s.foldl (fun n c => n * 10 + (c.toNat - 48)) 0) else none

/-- Parse an unsigned integer below `bound`: an optional `+`, then digits. -/
def parseUnsigned (bound : Nat) (s : Str) : Option Nat :=
  (digits (if s.head? = some '+' then s.tail else s)).filter (· < bound)

def join (sep : Char) (pieces : List Str) : Str := [sep].intercalate pieces

/-! ## Cutting and splitting -/

theorem not_mem_before (c : Char) (s : Str) : c ∉ before c s := by
  intro h
  have := List.mem_takeWhile_imp h
  simp at this

theorem before_of_not_mem {c : Char} {s : Str} (h : c ∉ s) : before c s = s := by
  unfold before
  rw [List.takeWhile_eq_self_iff]
  intro x hx
  simpa using fun hxc : x = c => h (hxc ▸ hx)

theorem before_cons_ne {a c : Char} (h : a ≠ c) (s : Str) : before c (a :: s) = a :: before c s :=
  List.takeWhile_cons_of_pos (by simpa using h)

theorem before_append_cons {c : Char} {s : Str} (h : c ∉ s) (t : Str) : before c (s ++ c :: t) = s := by
  unfold before
  rw [List.takeWhile_append_of_pos]
  · simp
  · intro x hx
    simpa using fun hxc : x = c => h (hxc ▸ hx)

theorem append_cons_inj {c : Char} {a b s t : Str} (hs : c ∉ s) (ht : c ∉ t) (h : a ++ c :: s = b ++ c :: t) :
    a = b ∧ s = t := by
  have hrev : s.reverse ++ c :: a.reverse = t.reverse ++ c :: b.reverse := by
    simpa using congrArg List.reverse h
  have hst : s.reverse = t.reverse := by
    have hsb := before_append_cons (c := c) (s := s.reverse) (by simpa using hs) a.reverse
    have htb := before_append_cons (c := c) (s := t.reverse) (by simpa using ht) b.reverse
    rw [← hsb, hrev, htb]
  have heq : s = t := List.reverse_injective hst
  subst heq
  exact ⟨(List.append_left_inj _).1 h, rfl⟩

theorem rsplitOnce_append_cons {c : Char} (a : Str) {b : Str} (hb : c ∉ b) :
    rsplitOnce c (a ++ c :: b) = some (a, b) := by
  have hrev : (a ++ c :: b).reverse = b.reverse ++ c :: a.reverse := by simp
  have hne : ∀ x ∈ b.reverse, (x != c) = true := by
    intro x hx
    rw [bne_iff_ne]
    rintro rfl
    exact hb (List.mem_reverse.1 hx)
  have htake : (b.reverse ++ c :: a.reverse).takeWhile (· != c) = b.reverse := by
    rw [List.takeWhile_append_of_pos hne]
    simp
  have hdrop : (b.reverse ++ c :: a.reverse).drop (b.reverse.length + 1) = a.reverse := by
    rw [List.drop_append]
    simp
  unfold rsplitOnce
  rw [if_pos (List.mem_append_right a List.mem_cons_self)]
  simp only [hrev, htake, hdrop, List.reverse_reverse]

/-- **A cut at the last `c` is a split at one that no other follows.** -/
theorem rsplitOnce_eq_some {c : Char} {s a b : Str} : rsplitOnce c s = some (a, b) ↔ s = a ++ c :: b ∧ c ∉ b := by
  constructor
  · intro h
    have hmem : c ∈ s := by
      by_contra hno
      rw [rsplitOnce, if_neg hno] at h
      cases h
    obtain ⟨p, q, hs, hq⟩ := List.eq_append_cons_of_mem (List.mem_reverse.2 hmem)
    have hsplit : s = q.reverse ++ c :: p.reverse := by
      rw [← List.reverse_reverse s, hs]
      simp
    have hp : c ∉ p.reverse := by rwa [List.mem_reverse]
    rw [hsplit, rsplitOnce_append_cons _ hp] at h
    cases h
    exact ⟨hsplit, hp⟩
  · rintro ⟨rfl, hb⟩
    exact rsplitOnce_append_cons a hb

theorem before_subset (c : Char) (s : Str) : before c s ⊆ s :=
  (List.takeWhile_prefix _).subset

theorem trim_subset (s : Str) : trim s ⊆ s := fun _ h =>
  (List.dropWhile_suffix _).subset ((List.rdropWhile_prefix _ _).subset h)

/-- **No piece of a split contains the separator.** -/
theorem not_mem_of_mem_splitOn {sep : Char} {s p : Str} (h : p ∈ s.splitOn sep) : sep ∉ p := by
  induction s generalizing p with
  | nil => simp [List.splitOn] at h; simp [h]
  | cons a s ih =>
    rw [List.splitOn_eq_splitOnP, List.splitOnP_cons_eq_if_modifyHead] at h
    split at h
    · rcases List.mem_cons.1 h with rfl | h
      · simp
      · exact ih h
    · rename_i ha
      obtain ⟨q, qs, hq⟩ := List.exists_cons_of_ne_nil (List.splitOnP_ne_nil (· == sep) s)
      have hqs : s.splitOn sep = q :: qs := hq
      rw [hq, List.modifyHead_cons] at h
      rcases List.mem_cons.1 h with rfl | h
      · have := ih (p := q) (by rw [hqs]; exact List.mem_cons_self)
        simp only [beq_iff_eq] at ha
        simp only [List.mem_cons, not_or]
        exact ⟨Ne.symm ha, this⟩
      · exact ih (by rw [hqs]; exact List.mem_cons_of_mem _ h)

theorem dropPrefix?_eq_some {s q rest : Str} : s.dropPrefix? q = some rest ↔ s = q ++ rest := by
  rw [List.dropPrefix?_eq_some_iff]
  constructor
  · rintro ⟨front, hs, hfront⟩
    rw [hs, eq_of_beq hfront]
  · exact fun hs => ⟨q, hs, beq_self_eq_true q⟩

theorem join_cons_cons (sep : Char) (p q : Str) (ps : List Str) :
    join sep (p :: q :: ps) = p ++ sep :: join sep (q :: ps) := by
  simp [join, List.intercalate]

theorem join_splitOn (sep : Char) (s : Str) : join sep (s.splitOn sep) = s := List.intercalate_splitOn sep

theorem mem_of_mem_join {sep : Char} : ∀ {pieces : List Str} {c : Char}, c ∈ join sep pieces →
    c = sep ∨ ∃ p ∈ pieces, c ∈ p
  | [], c, h => by simp [join] at h
  | [p], c, h => by simp [join] at h; exact Or.inr ⟨p, by simp, h⟩
  | p :: q :: ps, c, h => by
    rw [join_cons_cons, List.mem_append, List.mem_cons] at h
    rcases h with h | h | h
    · exact Or.inr ⟨p, by simp, h⟩
    · exact Or.inl h
    · rcases mem_of_mem_join h with h | ⟨r, hr, hc⟩
      · exact Or.inl h
      · exact Or.inr ⟨r, List.mem_cons_of_mem _ hr, hc⟩

theorem subset_join_of_mem {sep : Char} : ∀ {pieces : List Str} {p : Str}, p ∈ pieces → p ⊆ join sep pieces
  | [q], p, h => by
    rw [List.mem_singleton] at h
    subst h
    simp [join]
  | q :: r :: ps, p, h => by
    rw [join_cons_cons]
    rcases List.mem_cons.1 h with rfl | h
    · exact List.subset_append_left _ _
    · intro c hc
      have hrest : c ∈ join sep (r :: ps) := subset_join_of_mem h hc
      simp [hrest]

theorem subset_of_mem_splitOn {sep : Char} {s p : Str} (h : p ∈ s.splitOn sep) : p ⊆ s := by
  have hsub : p ⊆ join sep (s.splitOn sep) := subset_join_of_mem h
  rwa [join_splitOn] at hsub

/-- **Joining non-empty pieces free of the separator loses nothing.** -/
theorem join_injective {sep : Char} {ps qs : List Str} (hp : ∀ p ∈ ps, p ≠ [] ∧ sep ∉ p)
    (hq : ∀ q ∈ qs, q ≠ [] ∧ sep ∉ q) (h : join sep ps = join sep qs) : ps = qs := by
  have hsplit : ∀ {ls : List Str}, (∀ l ∈ ls, l ≠ [] ∧ sep ∉ l) → ls ≠ [] →
      (join sep ls).splitOn sep = ls := fun hl hne =>
    List.splitOn_intercalate sep (fun l hm => (hl l hm).2) hne
  -- an empty join is the split `[[]]`, whose one piece no non-empty list of pieces has
  have hempty : ∀ {ls : List Str}, (∀ l ∈ ls, l ≠ [] ∧ sep ∉ l) → join sep ls = [] → ls = [] := by
    intro ls hl hj
    by_contra hne
    have := hsplit hl hne
    rw [hj] at this
    have hm : ([] : Str) ∈ ls := by rw [← this]; simp [List.splitOn]
    exact (hl _ hm).1 rfl
  by_cases hps : ps = []
  · subst hps
    exact (hempty hq (h.symm.trans (by simp [join]))).symm
  by_cases hqs : qs = []
  · subst hqs
    exact hempty hp (h.trans (by simp [join]))
  rw [← hsplit hp hps, ← hsplit hq hqs, h]

theorem join_append {sep : Char} (qs : List Str) (p : Str) (ps : List Str) (hq : qs ≠ []) :
    join sep (qs ++ p :: ps) = join sep qs ++ sep :: join sep (p :: ps) := by
  induction qs with
  | nil => exact absurd rfl hq
  | cons q qs ih =>
    cases qs with
    | nil =>
      rw [List.singleton_append, join_cons_cons]
      simp [join]
    | cons r rs =>
      have ih := ih (List.cons_ne_nil r rs)
      rw [List.cons_append, List.cons_append, join_cons_cons, ← List.cons_append, ih, join_cons_cons,
        List.append_assoc, List.cons_append]

/-- **The pieces of one text are the first pieces of another** exactly when the other is it, or goes on after it with
the separator. -/
theorem splitOn_prefix_iff {sep : Char} {q s : Str} :
    q.splitOn sep <+: s.splitOn sep ↔ s = q ∨ ∃ t, s = q ++ sep :: t := by
  constructor
  · rintro ⟨ps, hps⟩
    cases ps with
    | nil =>
      left
      rw [List.append_nil] at hps
      rw [← join_splitOn sep s, ← hps, join_splitOn]
    | cons p ps =>
      right
      refine ⟨join sep (p :: ps), ?_⟩
      rw [← join_splitOn sep s, ← hps, join_append _ _ _ (List.splitOn_ne_nil sep q), join_splitOn]
  · rintro (rfl | ⟨t, rfl⟩)
    · exact List.prefix_refl _
    · rw [List.splitOn_append_cons_self]
      exact List.prefix_append _ _

/-! ## Trimming -/

theorem head_trimStart {s : Str} {c : Char} (h : (trimStart s).head? = some c) : isWhitespace c = false := by
  have := List.head?_dropWhile_not isWhitespace s
  unfold trimStart at h
  rw [h] at this
  exact this

theorem trimStart_cons_self {c : Char} (hc : isWhitespace c = false) (s : Str) : trimStart (c :: s) = c :: s := by
  unfold trimStart
  rw [List.dropWhile_cons_of_neg (by simp [hc])]

theorem trimEnd_append_singleton {c : Char} (hc : isWhitespace c = false) (s : Str) :
    trimEnd (s ++ [c]) = s ++ [c] := List.rdropWhile_concat_neg _ _ _ (by simp [hc])

theorem trimEnd_trimEnd (s : Str) : trimEnd (trimEnd s) = trimEnd s := List.rdropWhile_idempotent _ _

theorem head_trim {s : Str} {c : Char} (h : (trim s).head? = some c) : isWhitespace c = false := by
  have hpre : trim s <+: trimStart s := List.rdropWhile_prefix _ _
  obtain ⟨t, ht⟩ := hpre
  refine head_trimStart (s := s) ?_
  rw [← ht, List.head?_append, h, Option.some_or]

theorem trim_trim (s : Str) : trim (trim s) = trim s := by
  have hstart : trimStart (trim s) = trim s := by
    cases ht : trim s with
    | nil => rfl
    | cons c t => exact trimStart_cons_self (head_trim (s := s) (by rw [ht]; rfl)) t
  show trimEnd (trimStart (trim s)) = trim s
  rw [hstart]
  exact trimEnd_trimEnd _

theorem before_trimStart {c : Char} (hc : isWhitespace c = false) : ∀ s : Str,
    before c (trimStart s) = trimStart (before c s)
  | [] => rfl
  | a :: s => by
    by_cases ha : isWhitespace a = true
    · have hac : a ≠ c := by
        rintro rfl
        rw [hc] at ha
        cases ha
      have hcons : ∀ t, trimStart (a :: t) = trimStart t := fun t => List.dropWhile_cons_of_pos ha
      rw [before_cons_ne hac, hcons, hcons]
      exact before_trimStart hc s
    · have ha' : isWhitespace a = false := by simpa using ha
      rw [trimStart_cons_self ha']
      by_cases hac : a = c
      · subst hac
        simp [before, trimStart]
      · rw [before_cons_ne hac, trimStart_cons_self ha']

theorem trimEnd_before_trimEnd {c : Char} (hc : isWhitespace c = false) (s : Str) :
    trimEnd (before c (trimEnd s)) = trimEnd (before c s) := by
  by_cases hs : c ∈ s
  · have hsplit : trimEnd s ++ s.rtakeWhile isWhitespace = s := List.rdropWhile_append_rtakeWhile
    have hmem : c ∈ trimEnd s := by
      rw [← hsplit, List.mem_append] at hs
      rcases hs with hs | hs
      · exact hs
      · rw [List.mem_rtakeWhile_imp hs] at hc
        cases hc
    obtain ⟨t, u, htu, hct⟩ := List.eq_append_cons_of_mem hmem
    have hb : before c (trimEnd s) = t := by rw [htu, before_append_cons hct]
    have hb' : before c s = t := by
      rw [← hsplit, htu, List.append_assoc, List.cons_append, before_append_cons hct]
    rw [hb, hb']
  · have hs' : c ∉ trimEnd s := fun h => hs ((List.rdropWhile_prefix _ _).subset h)
    rw [before_of_not_mem hs, before_of_not_mem hs', trimEnd_trimEnd]

/-- **Trimming before a cut at a visible separator adds nothing to trimming after it.** -/
theorem trim_before_trim {c : Char} (hc : isWhitespace c = false) (s : Str) :
    trim (before c (trim s)) = trim (before c s) := by
  unfold trim
  rw [← before_trimStart hc, ← before_trimStart hc, ← trimEnd_before_trimEnd hc (trimStart s)]
  congr 2
  cases ht : trimEnd (trimStart s) with
  | nil => rfl
  | cons d t => exact trimStart_cons_self (head_trim (s := s) (by unfold trim; rw [ht]; rfl)) t

/-! ## Trimming the members of a list -/

theorem not_mem_of_blank {c : Char} (hc : isWhitespace c = false) {w : Str} (hw : ∀ d ∈ w, isWhitespace d = true) :
    c ∉ w := fun hmem => by
  rw [hw c hmem] at hc
  cases hc

theorem trim_append_left {w : Str} (hw : ∀ c ∈ w, isWhitespace c = true) (s : Str) : trim (w ++ s) = trim s := by
  have hstart : trimStart (w ++ s) = trimStart s := List.dropWhile_append_of_pos hw
  unfold trim
  rw [hstart]

theorem trim_append_right {w : Str} (hw : ∀ c ∈ w, isWhitespace c = true) (s : Str) : trim (s ++ w) = trim s := by
  have hend : ∀ t : Str, trimEnd (t ++ w) = trimEnd t := by
    intro t
    unfold trimEnd List.rdropWhile
    rw [List.reverse_append, List.dropWhile_append_of_pos (fun c hc => hw c (List.mem_reverse.1 hc))]
  unfold trim trimStart
  rw [List.dropWhile_append]
  split
  · rename_i hall
    have hempty : w.dropWhile isWhitespace = [] := List.dropWhile_eq_nil_iff.2 hw
    rw [hempty, List.isEmpty_iff.1 hall]
  · exact hend _

/-- What trimming takes off both ends is white space. -/
theorem exists_trim (s : Str) : ∃ w w', s = w ++ trim s ++ w' ∧ (∀ c ∈ w, isWhitespace c = true) ∧
    ∀ c ∈ w', isWhitespace c = true := by
  have hstart : s.takeWhile isWhitespace ++ trimStart s = s := List.takeWhile_append_dropWhile
  have hend : trim s ++ (trimStart s).rtakeWhile isWhitespace = trimStart s := List.rdropWhile_append_rtakeWhile
  refine ⟨s.takeWhile isWhitespace, (trimStart s).rtakeWhile isWhitespace, ?_, ?_, ?_⟩
  · rw [List.append_assoc, hend, hstart]
  · exact fun c hc => List.mem_takeWhile_imp hc
  · exact fun c hc => List.mem_rtakeWhile_imp hc

/-- Joined texts split into the members of each. -/
theorem splitOn_join {sep : Char} : ∀ {pieces : List Str}, pieces ≠ [] →
    (join sep pieces).splitOn sep = pieces.flatMap (fun p => p.splitOn sep)
  | [], h => absurd rfl h
  | [p], _ => by simp [join]
  | p :: q :: ps, _ => by
    rw [join_cons_cons, List.splitOn_append_cons_self, splitOn_join (List.cons_ne_nil q ps)]
    rfl

theorem sublist_of_mem_splitOn {sep : Char} {s p : Str} (h : p ∈ s.splitOn sep) : p.Sublist s := by
  have hmem : ∀ {pieces : List Str}, p ∈ pieces → p.Sublist (join sep pieces) := by
    intro pieces hp
    induction pieces with
    | nil => cases hp
    | cons q qs ih =>
      cases qs with
      | nil =>
        rw [List.mem_singleton.1 hp]
        simp [join]
      | cons r rs =>
        rw [join_cons_cons]
        rcases List.mem_cons.1 hp with rfl | hp
        · exact List.sublist_append_left _ _
        · exact ((ih hp).cons sep).trans (List.sublist_append_right _ _)
  exact join_splitOn sep s ▸ hmem h

theorem splitOn_append_of_forall_ne {sep : Char} {w : Str} (hw : sep ∉ w) (s : Str) :
    (w ++ s).splitOn sep = (s.splitOn sep).modifyHead (w ++ ·) := by
  obtain ⟨p, ps, hs⟩ := List.exists_cons_of_ne_nil (List.splitOn_ne_nil sep s)
  have hp : ∀ q ∈ p :: ps, sep ∉ q := fun q hq => not_mem_of_mem_splitOn (hs ▸ hq)
  have hjoin : join sep (p :: ps) = s := hs ▸ join_splitOn sep s
  have hlong : join sep ((w ++ p) :: ps) = w ++ s := by
    rw [← hjoin]
    cases ps with
    | nil => simp [join]
    | cons q qs => rw [join_cons_cons, join_cons_cons, List.append_assoc]
  rw [hs, List.modifyHead_cons, ← hlong]
  refine List.splitOn_intercalate sep (fun q hq => ?_) (List.cons_ne_nil _ _)
  rcases List.mem_cons.1 hq with rfl | hq
  · rw [List.mem_append, not_or]
    exact ⟨hw, hp p List.mem_cons_self⟩
  · exact hp q (List.mem_cons_of_mem _ hq)

theorem splitOn_append_of_not_mem {sep : Char} {w : Str} (hw : sep ∉ w) : ∀ s : Str, ∃ ps p,
    s.splitOn sep = ps ++ [p] ∧ (s ++ w).splitOn sep = ps ++ [p ++ w] := by
  intro s
  obtain ⟨ps, p, hs⟩ : ∃ ps p, s.splitOn sep = ps ++ [p] :=
    ⟨_, _, (List.dropLast_append_getLast (List.splitOn_ne_nil sep s)).symm⟩
  refine ⟨ps, p, hs, ?_⟩
  have hjoin : ∀ (qs : List Str) (q : Str), join sep (qs ++ [q ++ w]) = join sep (qs ++ [q]) ++ w := by
    intro qs q
    induction qs with
    | nil => simp [join]
    | cons r rs ih =>
      obtain ⟨t, ts, ht⟩ := List.exists_cons_of_ne_nil (show rs ++ [q] ≠ [] by simp)
      obtain ⟨t', ts', ht'⟩ := List.exists_cons_of_ne_nil (show rs ++ [q ++ w] ≠ [] by simp)
      rw [List.cons_append, List.cons_append, ht', join_cons_cons, ← ht', ih, ht, join_cons_cons, List.append_assoc,
        List.cons_append]
  have hwhole : join sep (ps ++ [p]) = s := hs ▸ join_splitOn sep s
  rw [← hwhole, ← hjoin]
  refine List.splitOn_intercalate sep (fun q hq => ?_) (by simp)
  have hfree : ∀ r ∈ ps ++ [p], sep ∉ r := fun r hr => not_mem_of_mem_splitOn (hs ▸ hr)
  rcases List.mem_append.1 hq with hq | hq
  · exact hfree q (List.mem_append_left _ hq)
  · rw [List.mem_singleton.1 hq, List.mem_append, not_or]
    exact ⟨hfree p (by simp), hw⟩

theorem trimStart_append_cons {c : Char} (hc : isWhitespace c = false) (s t : Str) :
    trimStart (s ++ c :: t) = trimStart s ++ c :: t := by
  have hstart : trimStart (c :: t) = c :: t := trimStart_cons_self hc t
  unfold trimStart at hstart ⊢
  rw [List.dropWhile_append]
  split
  · rename_i hall
    rw [hstart, List.isEmpty_iff.1 hall, List.nil_append]
  · rfl

theorem trimEnd_append_cons {c : Char} (hc : isWhitespace c = false) (s t : Str) :
    trimEnd (s ++ c :: t) = s ++ c :: trimEnd t := by
  have hreverse : trimStart (t.reverse ++ c :: s.reverse) = trimStart t.reverse ++ c :: s.reverse :=
    trimStart_append_cons hc _ _
  unfold trimStart at hreverse
  unfold trimEnd List.rdropWhile
  rw [List.reverse_append, List.reverse_cons, List.append_assoc, List.singleton_append, hreverse]
  simp

/-- **Trimming around a visible character trims each side at its own end.** -/
theorem trim_append_cons {c : Char} (hc : isWhitespace c = false) (s t : Str) :
    trim (s ++ c :: t) = trimStart s ++ c :: trimEnd t := by
  unfold trim
  rw [trimStart_append_cons hc, trimEnd_append_cons hc]

theorem trim_trimEnd (s : Str) : trim (trimEnd s) = trim s := by
  have hsplit : trimEnd s ++ s.rtakeWhile isWhitespace = s := List.rdropWhile_append_rtakeWhile
  conv_rhs => rw [← hsplit]
  exact (trim_append_right (fun c hc => List.mem_rtakeWhile_imp hc) _).symm

/-- **Trimming a list trims no member differently.** -/
theorem map_trim_splitOn_trim {sep : Char} (hs : isWhitespace sep = false) (s : Str) :
    ((trim s).splitOn sep).map trim = (s.splitOn sep).map trim := by
  obtain ⟨w, w', hsplit, hw, hw'⟩ := exists_trim s
  obtain ⟨ps, p, htrim, hlong⟩ := splitOn_append_of_not_mem (not_mem_of_blank hs hw') (w ++ trim s)
  have hleft : ((w ++ trim s).splitOn sep).map trim = ((trim s).splitOn sep).map trim := by
    rw [splitOn_append_of_forall_ne (not_mem_of_blank hs hw)]
    obtain ⟨q, qs, hq⟩ := List.exists_cons_of_ne_nil (List.splitOn_ne_nil sep (trim s))
    rw [hq, List.modifyHead_cons, List.map_cons, List.map_cons, trim_append_left hw]
  rw [← hleft]
  conv_rhs => rw [hsplit, hlong]
  rw [htrim, List.map_append, List.map_append, List.map_singleton, List.map_singleton, trim_append_right hw']

/-! ## Case -/

theorem toNat_toLower (c : Char) :
    c.toLower.toNat = if 65 ≤ c.toNat ∧ c.toNat ≤ 90 then c.toNat + 32 else c.toNat := by
  have hA : ('A'.val).toNat = 65 := rfl
  have hZ : ('Z'.val).toNat = 90 := rfl
  have hd : ('a'.val - 'A'.val).toNat = 32 := rfl
  have hc : c.val.toNat = c.toNat := rfl
  unfold Char.toLower
  by_cases h : c.val ≥ 'A'.val ∧ c.val ≤ 'Z'.val
  · rw [dif_pos h]
    rw [ge_iff_le, UInt32.le_iff_toNat_le, UInt32.le_iff_toNat_le, hA, hZ, hc] at h
    rw [if_pos h]
    show (c.val + ('a'.val - 'A'.val)).toNat = _
    rw [UInt32.toNat_add, hd, hc]
    omega
  · rw [dif_neg h]
    rw [ge_iff_le, UInt32.le_iff_toNat_le, UInt32.le_iff_toNat_le, hA, hZ, hc] at h
    rw [if_neg h]

theorem toLower_eq_iff {c d : Char} (hlow : ¬ (97 ≤ d.toNat ∧ d.toNat ≤ 122))
    (hup : ¬ (65 ≤ d.toNat ∧ d.toNat ≤ 90)) : c.toLower = d ↔ c = d := by
  rw [← Char.toNat_inj, ← Char.toNat_inj, toNat_toLower]
  split <;> omega

theorem mem_asciiLower_iff {s : Str} {d : Char} (hlow : ¬ (97 ≤ d.toNat ∧ d.toNat ≤ 122))
    (hup : ¬ (65 ≤ d.toNat ∧ d.toNat ≤ 90)) : d ∈ asciiLower s ↔ d ∈ s := by
  unfold asciiLower
  rw [List.mem_map]
  constructor
  · rintro ⟨c, hc, h⟩
    rwa [← (toLower_eq_iff hlow hup).1 h]
  · exact fun h => ⟨d, h, (toLower_eq_iff hlow hup).2 rfl⟩

theorem isWhitespace_toLower (c : Char) : isWhitespace c.toLower = isWhitespace c := by
  unfold isWhitespace
  rw [toNat_toLower]
  split
  · rename_i h
    rw [Bool.eq_iff_iff]
    simp only [Bool.or_eq_true, Bool.and_eq_true, decide_eq_true_eq, beq_iff_eq]
    omega
  · rfl

theorem trim_asciiLower (s : Str) : trim (asciiLower s) = asciiLower (trim s) := by
  have hws : isWhitespace ∘ Char.toLower = isWhitespace := funext isWhitespace_toLower
  unfold trim trimEnd trimStart asciiLower List.rdropWhile
  rw [List.dropWhile_map, hws, ← List.map_reverse, List.dropWhile_map, hws, List.map_reverse]

theorem asciiLower_asciiLower (s : Str) : asciiLower (asciiLower s) = asciiLower s := by
  unfold asciiLower
  rw [List.map_map]
  apply List.map_congr_left
  intro c _
  rw [Function.comp_apply, ← Char.toNat_inj, toNat_toLower, toNat_toLower]
  by_cases h : 65 ≤ c.toNat ∧ c.toNat ≤ 90
  · rw [if_pos h, if_neg (by omega)]
  · rw [if_neg h, if_neg h]

theorem asciiLower_join (sep : Char) (hsep : Char.toLower sep = sep) :
    ∀ pieces : List Str, asciiLower (join sep pieces) = join sep (pieces.map asciiLower)
  | [] => rfl
  | [p] => by simp [join]
  | p :: q :: ps => by
    have ih := asciiLower_join sep hsep (q :: ps)
    rw [join_cons_cons, List.map_cons, List.map_cons, join_cons_cons, ← List.map_cons, ← ih]
    simp [asciiLower, hsep]

theorem splitOn_asciiLower {sep : Char} (hlow : ¬ (97 ≤ sep.toNat ∧ sep.toNat ≤ 122))
    (hup : ¬ (65 ≤ sep.toNat ∧ sep.toNat ≤ 90)) (s : Str) :
    (asciiLower s).splitOn sep = (s.splitOn sep).map asciiLower := by
  conv_lhs => rw [← join_splitOn sep s, asciiLower_join sep ((toLower_eq_iff hlow hup).2 rfl)]
  refine List.splitOn_intercalate sep (fun p hp => ?_) (by simp)
  obtain ⟨q, hq, rfl⟩ := List.mem_map.1 hp
  rw [mem_asciiLower_iff hlow hup]
  exact not_mem_of_mem_splitOn hq

theorem before_asciiLower {sep : Char} (hlow : ¬ (97 ≤ sep.toNat ∧ sep.toNat ≤ 122))
    (hup : ¬ (65 ≤ sep.toNat ∧ sep.toNat ≤ 90)) (s : Str) :
    before sep (asciiLower s) = asciiLower (before sep s) := by
  have hne : ((· != sep) ∘ Char.toLower) = (· != sep) := by
    funext c
    rw [Function.comp_apply, Bool.eq_iff_iff, bne_iff_ne, bne_iff_ne, ne_eq, toLower_eq_iff hlow hup]
  unfold before asciiLower
  rw [List.takeWhile_map, hne]

/-- ASCII upper case; `Char.toUpper` changes `a` to `z` only. -/
def asciiUpper (s : Str) : Str := s.map Char.toUpper

theorem toNat_toUpper (c : Char) :
    c.toUpper.toNat = if 97 ≤ c.toNat ∧ c.toNat ≤ 122 then c.toNat - 32 else c.toNat := by
  have ha : ('a'.val).toNat = 97 := rfl
  have hz : ('z'.val).toNat = 122 := rfl
  have hc : c.val.toNat = c.toNat := rfl
  unfold Char.toUpper
  by_cases h : c.val ≥ 'a'.val ∧ c.val ≤ 'z'.val
  · rw [dif_pos h]
    rw [ge_iff_le, UInt32.le_iff_toNat_le, UInt32.le_iff_toNat_le, ha, hz, hc] at h
    rw [if_pos h]
    show (c.val + ('A'.val - 'a'.val)).toNat = _
    have hd : ('A'.val - 'a'.val).toNat = 4294967264 := rfl
    rw [UInt32.toNat_add, hd, hc]
    omega
  · rw [dif_neg h]
    rw [ge_iff_le, UInt32.le_iff_toNat_le, UInt32.le_iff_toNat_le, ha, hz, hc] at h
    rw [if_neg h]

theorem asciiLower_asciiUpper (s : Str) : asciiLower (asciiUpper s) = asciiLower s := by
  unfold asciiLower asciiUpper
  rw [List.map_map]
  apply List.map_congr_left
  intro c _
  rw [Function.comp_apply, ← Char.toNat_inj, toNat_toLower, toNat_toLower, toNat_toUpper]
  by_cases h : 97 ≤ c.toNat ∧ c.toNat ≤ 122
  · rw [if_pos h]
    split <;> split <;> omega
  · rw [if_neg h]

theorem not_mem_asciiUpper {d : Char} (hd : 97 ≤ d.toNat ∧ d.toNat ≤ 122) (s : Str) : d ∉ asciiUpper s := by
  intro h
  obtain ⟨c, -, hc⟩ := List.mem_map.1 h
  have hnat := toNat_toUpper c
  rw [hc] at hnat
  split at hnat <;> omega

theorem trimStart_asciiLower (s : Str) : trimStart (asciiLower s) = asciiLower (trimStart s) := by
  have hws : isWhitespace ∘ Char.toLower = isWhitespace := funext isWhitespace_toLower
  unfold trimStart asciiLower
  rw [List.dropWhile_map, hws]

theorem eqIgnoreAsciiCase_iff (a b : Str) : eqIgnoreAsciiCase a b = true ↔ asciiLower a = asciiLower b := by
  simp [eqIgnoreAsciiCase]

/-! ## Canonical lists -/

/-- The canonical list of a list's members: sorted, then without neighbours that repeat. -/
def canon (l : List Str) : List Str := (l.insertionSort (· ≤ ·)).destutter (· ≠ ·)

theorem canon_eq_dedup (l : List Str) : canon l = (l.insertionSort (· ≤ ·)).dedup :=
  (List.pairwise_insertionSort (· ≤ ·) l).destutter_eq_dedup

theorem mem_canon {l : List Str} {s : Str} : s ∈ canon l ↔ s ∈ l := by
  rw [canon_eq_dedup, List.mem_dedup, List.mem_insertionSort]

/-- **Two lists have one canonical list exactly when they have the same members.** -/
theorem canon_eq_iff (l m : List Str) : canon l = canon m ↔ ∀ s, s ∈ l ↔ s ∈ m := by
  constructor
  · intro h s
    rw [← mem_canon, h, mem_canon]
  · intro h
    have hperm : (canon l).Perm (canon m) := by
      refine (List.perm_ext_iff_of_nodup ?_ ?_).2 (fun s => ?_)
      · rw [canon_eq_dedup]; exact List.nodup_dedup _
      · rw [canon_eq_dedup]; exact List.nodup_dedup _
      · rw [mem_canon, mem_canon, h s]
    have hsorted : ∀ k : List Str, (canon k).Pairwise (· ≤ ·) := fun k => by
      rw [canon_eq_dedup]
      exact (List.pairwise_insertionSort (· ≤ ·) k).sublist (List.dedup_sublist _)
    exact hperm.eq_of_pairwise (fun _ _ _ _ hab hba => le_antisymm hab hba) (hsorted l) (hsorted m)

example : canon ["gzip".toList, "br".toList, "gzip".toList] = ["br".toList, "gzip".toList] := by decide

end Text
