import Mathlib.Data.List.Nodup
import Mathlib.Data.List.TakeWhile
/-!
# Multimap — lines of keys in an order of their own

A multimap is a list of lines, each a key and a value; a key may have several lines.  A line is set in place of the
key's first, dropping the others, or added behind the key's first run.  What setting a list of lines leaves at a key is
the last value set (`valuesAt_setAll`), and a view of the lines is unchanged by it exactly when the view of each key is
(`filterMap_setAll_iff`).
-/
namespace Multimap

variable {κ ν ω : Type*} [DecidableEq κ]

def linesAt (k : κ) (l : List (κ × ν)) : List (κ × ν) := l.filter (fun x => x.1 = k)

/-- The values of a key, in their order. -/
def valuesAt (k : κ) (l : List (κ × ν)) : List ν := (linesAt k l).map Prod.snd

def drop (k : κ) (l : List (κ × ν)) : List (κ × ν) := l.filter (fun x => x.1 ≠ k)

def set (k : κ) (v : ν) : List (κ × ν) → List (κ × ν)
  | [] => [(k, v)]
  | x :: l => if x.1 = k then (k, v) :: drop k l else x :: set k v l

def add (k : κ) (v : ν) : List (κ × ν) → List (κ × ν)
  | [] => [(k, v)]
  | x :: l =>
    if x.1 = k then x :: (l.takeWhile (fun y => y.1 = k) ++ (k, v) :: l.dropWhile (fun y => y.1 = k))
    else x :: add k v l

def setAll (hs l : List (κ × ν)) : List (κ × ν) := hs.foldl (fun l h => set h.1 h.2 l) l

def addAll (hs l : List (κ × ν)) : List (κ × ν) := hs.foldl (fun l h => add h.1 h.2 l) l

/-! ## The values of a key -/

variable {k j : κ} {v : ν} {x : κ × ν} {l l' hs : List (κ × ν)}

@[simp] theorem valuesAt_nil : valuesAt k ([] : List (κ × ν)) = [] := rfl

theorem valuesAt_cons_self (h : x.1 = k) (l : List (κ × ν)) : valuesAt k (x :: l) = x.2 :: valuesAt k l := by
  simp [valuesAt, linesAt, h]

@[simp] theorem valuesAt_cons_pair (k : κ) (v : ν) (l : List (κ × ν)) : valuesAt k ((k, v) :: l) = v :: valuesAt k l :=
  valuesAt_cons_self rfl l

theorem valuesAt_cons_ne (h : x.1 ≠ k) (l : List (κ × ν)) : valuesAt k (x :: l) = valuesAt k l := by
  simp [valuesAt, linesAt, h]

theorem valuesAt_append (k : κ) (l l' : List (κ × ν)) : valuesAt k (l ++ l') = valuesAt k l ++ valuesAt k l' := by
  simp [valuesAt, linesAt]

theorem mem_valuesAt : v ∈ valuesAt k l ↔ (k, v) ∈ l := by
  unfold valuesAt
  constructor
  · intro h
    obtain ⟨⟨j, w⟩, hmem, rfl⟩ := List.mem_map.1 h
    obtain ⟨hmem, hj⟩ := List.mem_filter.1 hmem
    have hkey : j = k := by simpa using hj
    rwa [← hkey]
  · intro h
    exact List.mem_map.2 ⟨(k, v), List.mem_filter.2 ⟨h, by simp⟩, rfl⟩

theorem valuesAt_eq_nil_iff : valuesAt k l = [] ↔ ∀ x ∈ l, x.1 ≠ k := by
  simp [valuesAt, linesAt]

/-- Where no key has two lines, a key has one value exactly when its line is there. -/
theorem valuesAt_eq_singleton_iff (h : (l.map Prod.fst).Nodup) (k : κ) (v : ν) : valuesAt k l = [v] ↔ (k, v) ∈ l := by
  rw [← mem_valuesAt]
  induction l with
  | nil => simp
  | cons x l ih =>
    rw [List.map_cons, List.nodup_cons] at h
    by_cases hk : x.1 = k
    · have hnone : valuesAt k l = [] := by
        rw [valuesAt_eq_nil_iff]
        intro y hy hkey
        exact h.1 (List.mem_map.2 ⟨y, hy, hkey.trans hk.symm⟩)
      rw [valuesAt_cons_self hk, hnone]
      simp [eq_comm]
    · rw [valuesAt_cons_ne hk]
      exact ih h.2

theorem valuesAt_drop_self (k : κ) (l : List (κ × ν)) : valuesAt k (drop k l) = [] := by
  rw [valuesAt_eq_nil_iff]
  intro x hx
  simpa using (List.mem_filter.1 hx).2

theorem valuesAt_drop_ne (h : j ≠ k) (l : List (κ × ν)) : valuesAt k (drop j l) = valuesAt k l := by
  unfold valuesAt linesAt drop
  rw [List.filter_filter]
  congr 2
  funext x
  by_cases hx : x.1 = k
  · simp [hx, Ne.symm h]
  · simp [hx]

theorem drop_of_forall_ne (h : ∀ x ∈ l, x.1 ≠ k) : drop k l = l :=
  List.filter_eq_self.2 (fun x hx => by simpa using h x hx)

theorem drop_append (k : κ) (l l' : List (κ × ν)) : drop k (l ++ l') = drop k l ++ drop k l' :=
  List.filter_append ..

theorem valuesAt_set_self (k : κ) (v : ν) : ∀ l : List (κ × ν), valuesAt k (set k v l) = [v]
  | [] => by simp [set]
  | x :: l => by
    unfold set
    by_cases hx : x.1 = k
    · rw [if_pos hx, valuesAt_cons_pair, valuesAt_drop_self]
    · rw [if_neg hx, valuesAt_cons_ne hx, valuesAt_set_self k v l]

theorem valuesAt_set_ne (h : j ≠ k) (v : ν) : ∀ l : List (κ × ν), valuesAt k (set j v l) = valuesAt k l
  | [] => by rw [set, valuesAt_cons_ne h]
  | x :: l => by
    unfold set
    by_cases hx : x.1 = j
    · rw [if_pos hx, valuesAt_cons_ne h, valuesAt_drop_ne h, valuesAt_cons_ne (hx ▸ h)]
    · rw [if_neg hx]
      by_cases hk : x.1 = k
      · rw [valuesAt_cons_self hk, valuesAt_cons_self hk, valuesAt_set_ne h v l]
      · rw [valuesAt_cons_ne hk, valuesAt_cons_ne hk, valuesAt_set_ne h v l]

/-- An added line is one more of its key, somewhere behind the first. -/
theorem valuesAt_add_self (k : κ) (v : ν) : ∀ l : List (κ × ν), (valuesAt k (add k v l)).Perm (v :: valuesAt k l)
  | [] => by
    rw [add, valuesAt_cons_pair]
  | x :: l => by
    unfold add
    by_cases hx : x.1 = k
    · have hsplit : valuesAt k l = valuesAt k (l.takeWhile (fun y => y.1 = k)) ++
          valuesAt k (l.dropWhile (fun y => y.1 = k)) := by
        rw [← valuesAt_append, List.takeWhile_append_dropWhile]
      rw [if_pos hx, valuesAt_cons_self hx, valuesAt_cons_self hx, valuesAt_append, valuesAt_cons_pair, hsplit]
      refine ((List.perm_middle).cons x.2).trans ?_
      exact List.Perm.swap ..
    · rw [if_neg hx, valuesAt_cons_ne hx, valuesAt_cons_ne hx]
      exact valuesAt_add_self k v l

theorem head?_valuesAt_add_self (k : κ) (v : ν) :
    ∀ l : List (κ × ν), (valuesAt k (add k v l)).head? = (valuesAt k l).head?.or (some v)
  | [] => by
    rw [add, valuesAt_cons_pair]
    rfl
  | x :: l => by
    unfold add
    by_cases hx : x.1 = k
    · rw [if_pos hx, valuesAt_cons_self hx, valuesAt_cons_self hx]
      rfl
    · rw [if_neg hx, valuesAt_cons_ne hx, valuesAt_cons_ne hx]
      exact head?_valuesAt_add_self k v l

theorem valuesAt_add_ne (h : j ≠ k) (v : ν) : ∀ l : List (κ × ν), valuesAt k (add j v l) = valuesAt k l
  | [] => by rw [add, valuesAt_cons_ne h]
  | x :: l => by
    unfold add
    by_cases hx : x.1 = j
    · have hne : x.1 ≠ k := hx ▸ h
      have hrun : valuesAt k l = valuesAt k (l.takeWhile (fun y => y.1 = j)) ++
          valuesAt k (l.dropWhile (fun y => y.1 = j)) := by
        rw [← valuesAt_append, List.takeWhile_append_dropWhile]
      rw [if_pos hx, valuesAt_cons_ne hne, valuesAt_cons_ne hne, valuesAt_append, valuesAt_cons_ne h, ← hrun]
    · rw [if_neg hx]
      by_cases hk : x.1 = k
      · rw [valuesAt_cons_self hk, valuesAt_cons_self hk, valuesAt_add_ne h v l]
      · rw [valuesAt_cons_ne hk, valuesAt_cons_ne hk, valuesAt_add_ne h v l]

/-! ## Lists of lines -/

/-- **Setting lines leaves at a key the last value set**, or what was there. -/
theorem valuesAt_setAll (k : κ) : ∀ hs l : List (κ × ν),
    valuesAt k (setAll hs l) = ((valuesAt k hs).getLast?.map (fun v => [v])).getD (valuesAt k l)
  | [], l => rfl
  | h :: hs, l => by
    have hstep : setAll (h :: hs) l = setAll hs (set h.1 h.2 l) := rfl
    rw [hstep, valuesAt_setAll k hs]
    by_cases hk : h.1 = k
    · rw [valuesAt_cons_self hk, ← hk, valuesAt_set_self]
      cases hlast : (valuesAt h.1 hs).getLast? with
      | none =>
        rw [List.getLast?_eq_none_iff.1 hlast]
        rfl
      | some v => simp [List.getLast?_cons, hlast]
    · rw [valuesAt_cons_ne hk, valuesAt_set_ne hk]

/-- A key has a value once lines are set when one is set there or was there. -/
theorem valuesAt_setAll_ne_nil_iff (k : κ) (hs l : List (κ × ν)) :
    valuesAt k (setAll hs l) ≠ [] ↔ valuesAt k hs ≠ [] ∨ valuesAt k l ≠ [] := by
  rw [valuesAt_setAll]
  cases hlast : (valuesAt k hs).getLast? with
  | none => simp [List.getLast?_eq_none_iff.1 hlast]
  | some v =>
    have hset : valuesAt k hs ≠ [] := List.ne_nil_of_mem (List.mem_of_getLast? hlast)
    simp [hset]

/-- **Added lines stand beside those that were there.** -/
theorem valuesAt_addAll (k : κ) : ∀ hs l : List (κ × ν),
    (valuesAt k (addAll hs l)).Perm (valuesAt k hs ++ valuesAt k l)
  | [], l => List.Perm.refl _
  | h :: hs, l => by
    have hstep : addAll (h :: hs) l = addAll hs (add h.1 h.2 l) := rfl
    rw [hstep]
    refine (valuesAt_addAll k hs _).trans ?_
    by_cases hk : h.1 = k
    · rw [valuesAt_cons_self hk, ← hk]
      refine ((valuesAt_add_self h.1 h.2 l).append_left _).trans ?_
      exact List.perm_middle
    · rw [valuesAt_cons_ne hk, valuesAt_add_ne hk]

theorem head?_valuesAt_addAll (k : κ) : ∀ hs l : List (κ × ν),
    (valuesAt k (addAll hs l)).head? = (valuesAt k l).head?.or (valuesAt k hs).head?
  | [], l => by simp [addAll]
  | h :: hs, l => by
    have hstep : addAll (h :: hs) l = addAll hs (add h.1 h.2 l) := rfl
    rw [hstep, head?_valuesAt_addAll k hs]
    by_cases hk : h.1 = k
    · rw [← hk, head?_valuesAt_add_self, valuesAt_cons_self rfl, Option.or_assoc]
      rfl
    · rw [valuesAt_add_ne hk, valuesAt_cons_ne hk]

theorem linesAt_eq (k : κ) (l : List (κ × ν)) : linesAt k l = (valuesAt k l).map (fun v => (k, v)) := by
  have hsame : (linesAt k l).map (fun x => (k, x.2)) = (linesAt k l).map id := by
    apply List.map_congr_left
    intro x hx
    have hkey : x.1 = k := by simpa using (List.mem_filter.1 hx).2
    exact Prod.ext hkey.symm rfl
  rw [valuesAt, List.map_map]
  exact (hsame.trans (List.map_id _)).symm

/-! ## Lines as a multiset -/

theorem count_valuesAt [DecidableEq ν] (k : κ) (v : ν) (l : List (κ × ν)) : (valuesAt k l).count v = l.count (k, v) := by
  induction l with
  | nil => rfl
  | cons x l ih =>
    obtain ⟨j, w⟩ := x
    by_cases hj : j = k
    · subst hj
      rw [valuesAt_cons_pair, List.count_cons, List.count_cons, ih]
      simp
    · rw [valuesAt_cons_ne hj, ih, List.count_cons_of_ne (fun h => hj (congrArg Prod.fst h))]

/-- **Two lists have the same lines exactly when every key has the same values in both.** -/
theorem perm_iff_valuesAt [DecidableEq ν] : l.Perm l' ↔ ∀ k, (valuesAt k l).Perm (valuesAt k l') := by
  constructor
  · exact fun h k => (h.filter _).map Prod.snd
  · intro h
    rw [List.perm_iff_count]
    rintro ⟨k, v⟩
    rw [← count_valuesAt, ← count_valuesAt, (h k).count_eq]

/-- The keys of lines are distinct exactly when no key has two values. -/
theorem nodup_keys_iff : (l.map Prod.fst).Nodup ↔ ∀ k, (valuesAt k l).length ≤ 1 := by
  rw [List.nodup_iff_count_le_one]
  refine forall_congr' (fun k => ?_)
  have hcount : (l.map Prod.fst).count k = (valuesAt k l).length := by
    unfold valuesAt linesAt
    rw [List.length_map, List.count, List.countP_map, List.countP_eq_length_filter]
    rfl
  rw [hcount]

theorem addAll_perm [DecidableEq ν] (hs l : List (κ × ν)) : (addAll hs l).Perm (hs ++ l) := by
  rw [perm_iff_valuesAt]
  intro k
  rw [valuesAt_append]
  exact valuesAt_addAll k hs l

/-- Setting a line adds one exactly when its key had none. -/
theorem set_perm_iff [DecidableEq ν] : (set k v l).Perm ((k, v) :: l) ↔ ∀ x ∈ l, x.1 ≠ k := by
  rw [perm_iff_valuesAt, ← valuesAt_eq_nil_iff]
  constructor
  · intro h
    have hlength := (h k).length_eq
    rw [valuesAt_set_self, valuesAt_cons_pair, List.length_singleton, List.length_cons] at hlength
    exact List.length_eq_zero_iff.1 (Nat.succ.inj hlength).symm
  · intro hnone j
    by_cases hj : k = j
    · subst hj
      rw [valuesAt_set_self, valuesAt_cons_pair, hnone]
    · rw [valuesAt_set_ne hj, valuesAt_cons_ne hj]

/-- **Lines set one after the other are all there exactly when their keys are distinct.** -/
theorem setAll_nil_perm_iff [DecidableEq ν] : (setAll hs []).Perm hs ↔ (hs.map Prod.fst).Nodup := by
  rw [perm_iff_valuesAt, nodup_keys_iff]
  refine forall_congr' (fun k => ?_)
  rw [valuesAt_setAll]
  cases hvalues : valuesAt k hs with
  | nil => exact iff_of_true (List.Perm.refl _) (Nat.zero_le 1)
  | cons v vs =>
    constructor
    · intro hp
      have hlength := hp.length_eq
      simp only [List.getLast?_cons, Option.map_some, Option.getD_some, List.length_singleton] at hlength
      exact Nat.le_of_eq hlength.symm
    · intro hone
      have hnil : vs = [] := List.length_eq_zero_iff.1 (by simpa using hone)
      subst hnil
      exact List.Perm.refl _

/-! ## Views -/

/-- The lines of each key stand together. -/
def Grouped (l : List (κ × ν)) : Prop :=
  ∀ k, ∃ before run after, l = before ++ run ++ after ∧ (∀ x ∈ before, x.1 ≠ k) ∧ (∀ x ∈ run, x.1 = k) ∧
    ∀ x ∈ after, x.1 ≠ k

theorem set_append_of_mem (k : κ) (v : ν) : ∀ {l l' : List (κ × ν)}, (∃ x ∈ l, x.1 = k) →
    set k v (l ++ l') = set k v l ++ drop k l'
  | [], l', h => by
    obtain ⟨x, hx, -⟩ := h
    cases hx
  | y :: l, l', h => by
    rw [List.cons_append, set, set]
    by_cases hy : y.1 = k
    · rw [if_pos hy, if_pos hy, drop_append, List.cons_append]
    · have hrest : ∃ x ∈ l, x.1 = k := by
        obtain ⟨x, hx, hk⟩ := h
        rcases List.mem_cons.1 hx with rfl | hx
        · exact absurd hk hy
        · exact ⟨x, hx, hk⟩
      rw [if_neg hy, if_neg hy, set_append_of_mem k v hrest, List.cons_append]

theorem set_append_of_forall_ne (k : κ) (v : ν) : ∀ {l l' : List (κ × ν)}, (∀ x ∈ l, x.1 ≠ k) →
    set k v (l ++ l') = l ++ set k v l'
  | [], l', _ => rfl
  | y :: l, l', h => by
    have hrest : set k v (l ++ l') = l ++ set k v l' :=
      set_append_of_forall_ne k v (fun x hx => h x (List.mem_cons_of_mem _ hx))
    rw [List.cons_append, set, if_neg (h y List.mem_cons_self), hrest, List.cons_append]

theorem set_of_forall_ne (k : κ) (v : ν) (h : ∀ x ∈ l, x.1 ≠ k) : set k v l = l ++ [(k, v)] := by
  have happend : set k v (l ++ []) = l ++ set k v [] := set_append_of_forall_ne k v h
  rwa [List.append_nil] at happend

theorem mem_of_mem_set (k : κ) (v : ν) : ∀ {l : List (κ × ν)} {x : κ × ν}, x ∈ set k v l → x = (k, v) ∨ x ∈ l
  | [], x, h => Or.inl (List.mem_singleton.1 h)
  | y :: l, x, h => by
    unfold set at h
    split at h
    · rcases List.mem_cons.1 h with rfl | h
      · exact Or.inl rfl
      · exact Or.inr (List.mem_cons_of_mem _ (List.mem_filter.1 h).1)
    · rcases List.mem_cons.1 h with rfl | h
      · exact Or.inr List.mem_cons_self
      · rcases mem_of_mem_set k v h with h | h
        · exact Or.inl h
        · exact Or.inr (List.mem_cons_of_mem _ h)

/-- What setting a line does to grouped lines: it takes the place of its key's, or the last. -/
theorem set_of_run (k : κ) (v : ν) {pre run post : List (κ × ν)} (hpre : ∀ x ∈ pre, x.1 ≠ k) (hrun : ∀ x ∈ run, x.1 = k)
    (hpost : ∀ x ∈ post, x.1 ≠ k) :
    set k v (pre ++ run ++ post) = if run = [] then pre ++ post ++ [(k, v)] else pre ++ [(k, v)] ++ post := by
  cases run with
  | nil =>
    have hnone : ∀ x ∈ pre ++ post, x.1 ≠ k := fun x hx => (List.mem_append.1 hx).elim (hpre x) (hpost x)
    rw [if_pos rfl, List.append_nil, set_of_forall_ne k v hnone]
  | cons y run =>
    have hy : y.1 = k := hrun y List.mem_cons_self
    have hdropped : drop k run = [] := by
      apply List.filter_eq_nil_iff.2
      intro x hx
      simpa using hrun x (List.mem_cons_of_mem _ hx)
    rw [if_neg (List.cons_ne_nil _ _), List.append_assoc, set_append_of_forall_ne k v hpre, List.cons_append, set, if_pos hy,
      drop_append, hdropped, drop_of_forall_ne hpost, List.append_assoc]
    rfl

theorem Grouped.set (hl : Grouped l) (k : κ) (v : ν) : Grouped (set k v l) := by
  intro j
  by_cases hj : j = k
  · obtain ⟨pre, run, post, rfl, hpre, hrun, hpost⟩ := hl k
    have hline : ∀ x ∈ [(k, v)], x.1 = j := fun x hx => by rw [List.mem_singleton.1 hx, hj]
    rw [set_of_run k v hpre hrun hpost]
    subst hj
    by_cases hempty : run = []
    · rw [if_pos hempty]
      refine ⟨pre ++ post, [(j, v)], [], (List.append_nil _).symm, ?_, hline, fun x hx => by cases hx⟩
      exact fun x hx => (List.mem_append.1 hx).elim (hpre x) (hpost x)
    · rw [if_neg hempty]
      exact ⟨pre, [(j, v)], post, rfl, hpre, hline, hpost⟩
  · obtain ⟨pre, run, post, rfl, hpre, hrun, hpost⟩ := hl j
    -- the line set is none of the key's, and neither are those it drops
    have hset : ∀ {m : List (κ × ν)}, (∀ x ∈ m, x.1 ≠ j) → ∀ x ∈ Multimap.set k v m, x.1 ≠ j := by
      intro m hm x hx
      rcases mem_of_mem_set k v hx with rfl | hx
      · exact Ne.symm hj
      · exact hm x hx
    have hother : ∀ x ∈ run, x.1 ≠ k := fun x hx => by rw [hrun x hx]; exact hj
    rw [List.append_assoc]
    by_cases hmem : ∃ x ∈ pre, x.1 = k
    · rw [set_append_of_mem k v hmem, drop_append, drop_of_forall_ne hother, ← List.append_assoc]
      exact ⟨_, run, _, rfl, hset hpre, hrun, fun x hx => hpost x (List.mem_filter.1 hx).1⟩
    · have hnone : ∀ x ∈ pre, x.1 ≠ k := fun x hx hk => hmem ⟨x, hx, hk⟩
      rw [set_append_of_forall_ne k v hnone, set_append_of_forall_ne k v hother, ← List.append_assoc]
      exact ⟨pre, run, _, rfl, hpre, hrun, hset hpost⟩

theorem Grouped.drop (hl : Grouped l) (k : κ) : Grouped (drop k l) := by
  intro j
  obtain ⟨pre, run, post, rfl, hpre, hrun, hpost⟩ := hl j
  have hkept : ∀ {m : List (κ × ν)} {x : κ × ν}, x ∈ Multimap.drop k m → x ∈ m := fun h => (List.mem_filter.1 h).1
  refine ⟨Multimap.drop k pre, Multimap.drop k run, Multimap.drop k post, ?_, ?_, ?_, ?_⟩
  · rw [drop_append, drop_append]
  · exact fun x hx => hpre x (hkept hx)
  · exact fun x hx => hrun x (hkept hx)
  · exact fun x hx => hpost x (hkept hx)

theorem Grouped.setAll : ∀ (hs : List (κ × ν)) {l : List (κ × ν)}, Grouped l → Grouped (setAll hs l)
  | [], _, hl => hl
  | h :: hs, _, hl => Grouped.setAll hs (hl.set h.1 h.2)

omit [DecidableEq κ] in
theorem grouped_nil : Grouped ([] : List (κ × ν)) := by
  intro k
  have hnone : ∀ {P : κ × ν → Prop}, ∀ x ∈ ([] : List (κ × ν)), P x := fun x hx => (List.not_mem_nil hx).elim
  exact ⟨[], [], [], rfl, hnone, hnone, hnone⟩

/-! ## Added lines of grouped lines -/

theorem add_append_of_forall_ne (k : κ) (v : ν) : ∀ {l l' : List (κ × ν)}, (∀ x ∈ l, x.1 ≠ k) →
    add k v (l ++ l') = l ++ add k v l'
  | [], l', _ => rfl
  | y :: l, l', h => by
    have hrest : add k v (l ++ l') = l ++ add k v l' :=
      add_append_of_forall_ne k v (fun x hx => h x (List.mem_cons_of_mem _ hx))
    rw [List.cons_append, add, if_neg (h y List.mem_cons_self), hrest, List.cons_append]

/-- A line whose key stands in the first part is added there, if the key's lines do not go on behind it. -/
theorem add_append_of_mem (k : κ) (v : ν) : ∀ {l l' : List (κ × ν)}, (∃ x ∈ l, x.1 = k) →
    (∀ x ∈ l'.head?, x.1 ≠ k) → add k v (l ++ l') = add k v l ++ l'
  | [], l', h, _ => by
    obtain ⟨x, hx, -⟩ := h
    cases hx
  | y :: l, l', h, hhead => by
    rw [List.cons_append, add, add]
    by_cases hy : y.1 = k
    · have htake : l'.takeWhile (fun y => decide (y.1 = k)) = [] := by
        cases l' with
        | nil => rfl
        | cons z l' => exact List.takeWhile_cons_of_neg (by simpa using hhead z rfl)
      have hdrop : l'.dropWhile (fun y => decide (y.1 = k)) = l' := by
        cases l' with
        | nil => rfl
        | cons z l' => exact List.dropWhile_cons_of_neg (by simpa using hhead z rfl)
      rw [if_pos hy, if_pos hy, List.takeWhile_append, List.dropWhile_append, htake, hdrop]
      by_cases hall : ∀ x ∈ l, x.1 = k
      · have hwhole : l.takeWhile (fun y => decide (y.1 = k)) = l :=
          List.takeWhile_eq_self_iff.2 (fun x hx => by simpa using hall x hx)
        have hnothing : l.dropWhile (fun y => decide (y.1 = k)) = [] :=
          List.dropWhile_eq_nil_iff.2 (fun x hx => by simpa using hall x hx)
        simp [hwhole, hnothing]
      · have hne : l.dropWhile (fun y => decide (y.1 = k)) ≠ [] := by
          rw [Ne, List.dropWhile_eq_nil_iff]
          simpa using hall
        have hlength : (l.takeWhile (fun y => decide (y.1 = k))).length ≠ l.length := by
          intro heq
          have hself := List.takeWhile_eq_self_iff.1 ((List.takeWhile_prefix _).eq_of_length heq)
          exact hall (fun x hx => by simpa using hself x hx)
        rw [if_neg hlength, if_neg (by simpa using hne)]
        simp
    · have hrest : ∃ x ∈ l, x.1 = k := by
        obtain ⟨x, hx, hk⟩ := h
        rcases List.mem_cons.1 hx with rfl | hx
        · exact absurd hk hy
        · exact ⟨x, hx, hk⟩
      rw [if_neg hy, if_neg hy, add_append_of_mem k v hrest hhead, List.cons_append]

theorem mem_of_mem_add {k : κ} {v : ν} {x : κ × ν} (h : x ∈ add k v l) : x = (k, v) ∨ x ∈ l := by
  by_cases hx : x.1 = k
  · have hvalue : x.2 ∈ valuesAt k (add k v l) := mem_valuesAt.2 (hx ▸ h)
    rcases List.mem_cons.1 ((valuesAt_add_self k v l).subset hvalue) with hnew | hold
    · exact .inl (Prod.ext hx hnew)
    · exact .inr (by simpa [← hx] using mem_valuesAt.1 hold)
  · have hvalue : x.2 ∈ valuesAt x.1 (add k v l) := mem_valuesAt.2 h
    rw [valuesAt_add_ne (Ne.symm hx)] at hvalue
    exact .inr (mem_valuesAt.1 hvalue)

/-- What adding a line does to grouped lines: it stands behind its key's, or last. -/
theorem add_of_run (k : κ) (v : ν) {pre run post : List (κ × ν)} (hpre : ∀ x ∈ pre, x.1 ≠ k) (hrun : ∀ x ∈ run, x.1 = k)
    (hpost : ∀ x ∈ post, x.1 ≠ k) :
    add k v (pre ++ run ++ post) = if run = [] then pre ++ post ++ [(k, v)] else pre ++ (run ++ [(k, v)]) ++ post := by
  cases run with
  | nil =>
    have hnone : ∀ x ∈ pre ++ post, x.1 ≠ k := fun x hx => (List.mem_append.1 hx).elim (hpre x) (hpost x)
    have hlast : add k v (pre ++ post ++ []) = _ := add_append_of_forall_ne k v hnone
    rw [List.append_nil, add] at hlast
    rw [if_pos rfl, List.append_nil, hlast]
  | cons y run =>
    have hwhole : run.takeWhile (fun y => decide (y.1 = k)) = run :=
      List.takeWhile_eq_self_iff.2 (fun x hx => by simpa using hrun x (List.mem_cons_of_mem _ hx))
    have hnothing : run.dropWhile (fun y => decide (y.1 = k)) = [] :=
      List.dropWhile_eq_nil_iff.2 (fun x hx => by simpa using hrun x (List.mem_cons_of_mem _ hx))
    have hbehind : add k v (y :: run) = y :: run ++ [(k, v)] := by
      rw [add, if_pos (hrun y List.mem_cons_self), hwhole, hnothing, List.cons_append]
    rw [if_neg (List.cons_ne_nil _ _), List.append_assoc, add_append_of_forall_ne k v hpre,
      add_append_of_mem k v ⟨y, List.mem_cons_self, hrun y List.mem_cons_self⟩
        (fun x hx => hpost x (List.mem_of_mem_head? hx)), hbehind, List.append_assoc, List.append_assoc,
      List.append_assoc]

theorem Grouped.add (hl : Grouped l) (k : κ) (v : ν) : Grouped (add k v l) := by
  intro j
  by_cases hj : j = k
  · obtain ⟨pre, run, post, rfl, hpre, hrun, hpost⟩ := hl k
    rw [add_of_run k v hpre hrun hpost]
    subst hj
    by_cases hempty : run = []
    · rw [if_pos hempty]
      refine ⟨pre ++ post, [(j, v)], [], (List.append_nil _).symm, ?_, ?_, fun x hx => by cases hx⟩
      · exact fun x hx => (List.mem_append.1 hx).elim (hpre x) (hpost x)
      · exact fun x hx => by rw [List.mem_singleton.1 hx]
    · rw [if_neg hempty]
      refine ⟨pre, run ++ [(j, v)], post, rfl, hpre, fun x hx => ?_, hpost⟩
      rcases List.mem_append.1 hx with hx | hx
      · exact hrun x hx
      · rw [List.mem_singleton.1 hx]
  · obtain ⟨pre, run, post, rfl, hpre, hrun, hpost⟩ := hl j
    have hadd : ∀ {m : List (κ × ν)}, (∀ x ∈ m, x.1 ≠ j) → ∀ x ∈ Multimap.add k v m, x.1 ≠ j := by
      intro m hm x hx
      rcases mem_of_mem_add hx with rfl | hx
      · exact Ne.symm hj
      · exact hm x hx
    have hother : ∀ x ∈ run, x.1 ≠ k := fun x hx => by rw [hrun x hx]; exact hj
    cases run with
    | nil =>
      have hnone : ∀ x ∈ pre ++ [] ++ post, x.1 ≠ j := by
        intro x hx
        rw [List.append_nil] at hx
        exact (List.mem_append.1 hx).elim (hpre x) (hpost x)
      have hempty : ∀ x ∈ ([] : List (κ × ν)), x.1 = j ∧ x.1 ≠ j := fun x hx => absurd hx List.not_mem_nil
      exact ⟨_, [], [], (List.append_nil _).symm.trans (List.append_nil _).symm, hadd hnone,
        fun x hx => (hempty x hx).1, fun x hx => (hempty x hx).2⟩
    | cons y run =>
      rw [List.append_assoc]
      by_cases hmem : ∃ x ∈ pre, x.1 = k
      · have hhead : ∀ x ∈ (y :: run ++ post).head?, x.1 ≠ k := by
          intro x hx
          rw [List.cons_append, List.head?_cons, Option.mem_some_iff] at hx
          exact hx ▸ hother y List.mem_cons_self
        rw [add_append_of_mem k v hmem hhead, ← List.append_assoc]
        exact ⟨_, y :: run, _, rfl, hadd hpre, hrun, hpost⟩
      · have hnone : ∀ x ∈ pre, x.1 ≠ k := fun x hx hk => hmem ⟨x, hx, hk⟩
        rw [add_append_of_forall_ne k v hnone, add_append_of_forall_ne k v hother, ← List.append_assoc]
        exact ⟨pre, y :: run, _, rfl, hpre, hrun, hadd hpost⟩

/-- **Grouped lines keep their order**: an added value is the last of its key. -/
theorem valuesAt_add_of_grouped (hl : Grouped l) (k : κ) (v : ν) : valuesAt k (add k v l) = valuesAt k l ++ [v] := by
  obtain ⟨pre, run, post, rfl, hpre, hrun, hpost⟩ := hl k
  have hnone : ∀ {m : List (κ × ν)}, (∀ x ∈ m, x.1 ≠ k) → valuesAt k m = [] := fun hm => valuesAt_eq_nil_iff.2 hm
  rw [add_of_run k v hpre hrun hpost]
  by_cases hempty : run = []
  · subst hempty
    simp [valuesAt_append, hnone hpre, hnone hpost]
  · rw [if_neg hempty]
    simp [valuesAt_append, hnone hpre, hnone hpost]

theorem valuesAt_addAll_of_grouped (k : κ) : ∀ (hs : List (κ × ν)) {l : List (κ × ν)}, Grouped l →
    valuesAt k (addAll hs l) = valuesAt k l ++ valuesAt k hs
  | [], l, _ => (List.append_nil _).symm
  | h :: hs, l, hl => by
    have hstep : addAll (h :: hs) l = addAll hs (add h.1 h.2 l) := rfl
    rw [hstep, valuesAt_addAll_of_grouped k hs (hl.add h.1 h.2)]
    by_cases hk : h.1 = k
    · rw [valuesAt_cons_self hk, ← hk, valuesAt_add_of_grouped hl, List.append_assoc]
      rfl
    · rw [valuesAt_add_ne hk, valuesAt_cons_ne hk]

/-! ## Grouped lines as a view -/

theorem linesAt_of_run {k : κ} {pre run post : List (κ × ν)} (hpre : ∀ x ∈ pre, x.1 ≠ k) (hrun : ∀ x ∈ run, x.1 = k)
    (hpost : ∀ x ∈ post, x.1 ≠ k) : linesAt k (pre ++ run ++ post) = run := by
  have hnone : ∀ {m : List (κ × ν)}, (∀ x ∈ m, x.1 ≠ k) → linesAt k m = [] := fun hm =>
    List.filter_eq_nil_iff.2 (fun x hx => by simpa using hm x hx)
  have hall : linesAt k run = run := List.filter_eq_self.2 (fun x hx => by simpa using hrun x hx)
  have hsplit : linesAt k (pre ++ run ++ post) = linesAt k pre ++ linesAt k run ++ linesAt k post := by
    rw [linesAt, List.filter_append, List.filter_append]
    rfl
  rw [hsplit, hnone hpre, hnone hpost, hall, List.append_nil, List.nil_append]

variable {f : κ × ν → Option ω}

/-- **A line whose key looks the same afterwards changes no view.** -/
theorem filterMap_set (hl : Grouped l) (h : (linesAt k l).filterMap f = [(k, v)].filterMap f) :
    (set k v l).filterMap f = l.filterMap f := by
  obtain ⟨pre, run, post, rfl, hpre, hrun, hpost⟩ := hl k
  rw [linesAt_of_run hpre hrun hpost] at h
  rw [set_of_run k v hpre hrun hpost]
  by_cases hempty : run = []
  · subst hempty
    rw [if_pos rfl, List.append_nil, List.filterMap_append, ← h, List.filterMap_nil, List.append_nil]
  · rw [if_neg hempty, List.filterMap_append, List.filterMap_append, List.filterMap_append, List.filterMap_append, h]

/-- Dropping lines that a view does not show changes nothing of it. -/
theorem filterMap_drop (h : ∀ v, f (k, v) = none) (l : List (κ × ν)) : (drop k l).filterMap f = l.filterMap f := by
  induction l with
  | nil => rfl
  | cons x l ih =>
    unfold drop at ih ⊢
    by_cases hx : x.1 = k
    · have hhidden : f x = none := by
        obtain ⟨j, v⟩ := x
        subst hx
        exact h v
      rw [List.filter_cons_of_neg (by simpa using hx), List.filterMap_cons_none hhidden, ih]
    · rw [List.filter_cons_of_pos (by simpa using hx), List.filterMap_cons, List.filterMap_cons, ih]

/-! ## Views of many lines -/

/-- The line with the last value set for its key. -/
def final (hs : List (κ × ν)) (x : κ × ν) : κ × ν := (x.1, (valuesAt x.1 hs).getLast?.getD x.2)

theorem map_drop {g : κ × ν → κ × ν} (hg : ∀ x, (g x).1 = x.1) (k : κ) (l : List (κ × ν)) :
    (drop k l).map g = drop k (l.map g) := by
  unfold drop
  rw [List.filter_map]
  congr 2
  funext x
  simp [hg]

theorem map_set {g : κ × ν → κ × ν} (hg : ∀ x, (g x).1 = x.1) (k : κ) (v : ν) : ∀ l : List (κ × ν),
    (set k v l).map g = set k (g (k, v)).2 (l.map g)
  | [] => by
    rw [set, List.map_nil, set, List.map_singleton]
    exact congrArg (fun x => [x]) (Prod.ext (hg _) rfl)
  | x :: l => by
    rw [List.map_cons, set, set, hg]
    by_cases hx : x.1 = k
    · rw [if_pos hx, if_pos hx, List.map_cons, map_drop hg]
      exact congrArg (fun y => y :: drop k (l.map g)) (Prod.ext (hg _) rfl)
    · rw [if_neg hx, if_neg hx, List.map_cons, map_set hg k v l]

theorem map_setAll {g : κ × ν → κ × ν} (hg : ∀ x, (g x).1 = x.1) : ∀ hs l : List (κ × ν),
    (setAll hs l).map g = setAll (hs.map g) (l.map g)
  | [], l => rfl
  | h :: hs, l => by
    have hstep : setAll (h :: hs) l = setAll hs (set h.1 h.2 l) := rfl
    have hmapped : setAll ((h :: hs).map g) (l.map g) = setAll (hs.map g) (set (g h).1 (g h).2 (l.map g)) := rfl
    rw [hstep, hmapped, map_setAll hg hs, map_set hg, hg]

theorem valuesAt_map_final (hs gs : List (κ × ν)) (k : κ) :
    valuesAt k (gs.map (final hs)) = (valuesAt k gs).map (fun v => (valuesAt k hs).getLast?.getD v) := by
  induction gs with
  | nil => rfl
  | cons x gs ih =>
    rw [List.map_cons]
    by_cases hx : x.1 = k
    · have hline : (final hs x).1 = k := hx
      rw [valuesAt_cons_self hline, valuesAt_cons_self hx, List.map_cons, ih, ← hx]
      rfl
    · have hline : (final hs x).1 ≠ k := hx
      rw [valuesAt_cons_ne hline, valuesAt_cons_ne hx, ih]

/-- After setting, every line has the last value set for its key. -/
theorem final_of_mem_setAll {hs gs : List (κ × ν)} (h : ∀ k v, (valuesAt k hs).getLast? = some v →
    (valuesAt k gs).getLast? = some v) (hx : x ∈ setAll gs l) : final hs x = x := by
  have hmem : x.2 ∈ valuesAt x.1 (setAll gs l) := mem_valuesAt.2 hx
  rw [valuesAt_setAll] at hmem
  unfold final
  cases hlast : (valuesAt x.1 hs).getLast? with
  | none => rfl
  | some v =>
    rw [h _ _ hlast] at hmem
    have hv : x.2 = v := by simpa using hmem
    rw [Option.getD_some, ← hv]

/-- **Only the last value set for a key matters**, and not where the others were set. -/
theorem setAll_map_final (hs l : List (κ × ν)) : setAll (hs.map (final hs)) l = setAll hs l := by
  have hlast : ∀ k v, (valuesAt k hs).getLast? = some v → (valuesAt k (hs.map (final hs))).getLast? = some v := by
    intro k v hv
    rw [valuesAt_map_final, List.getLast?_map, hv]
    rfl
  have hid : ∀ {gs : List (κ × ν)}, (∀ k v, (valuesAt k hs).getLast? = some v → (valuesAt k gs).getLast? = some v) →
      (setAll gs l).map (final hs) = setAll gs l := by
    intro gs hgs
    exact (List.map_congr_left (fun x hx => final_of_mem_setAll hgs hx)).trans (List.map_id _)
  have hidem : (hs.map (final hs)).map (final hs) = hs.map (final hs) := by
    rw [List.map_map]
    apply List.map_congr_left
    intro x hx
    show final hs (final hs x) = final hs x
    unfold final
    cases (valuesAt x.1 hs).getLast? <;> rfl
  have hkey : ∀ x, (final hs x).1 = x.1 := fun _ => rfl
  calc setAll (hs.map (final hs)) l
      = (setAll (hs.map (final hs)) l).map (final hs) := (hid hlast).symm
    _ = setAll (hs.map (final hs)) (l.map (final hs)) := by rw [map_setAll hkey, hidem]
    _ = (setAll hs l).map (final hs) := (map_setAll hkey hs l).symm
    _ = setAll hs l := hid (fun _ _ h => h)

/-- Setting lines that agree with each other, and look like what was there, changes no view. -/
theorem filterMap_setAll_of_agree : ∀ {gs l : List (κ × ν)}, Grouped l →
    (∀ h ∈ gs, ∀ h' ∈ gs, h.1 = h'.1 → h = h') → (∀ h ∈ gs, (linesAt h.1 l).filterMap f = [h].filterMap f) →
    (setAll gs l).filterMap f = l.filterMap f
  | [], l, _, _, _ => rfl
  | g :: gs, l, hl, hagree, hlook => by
    have hstep : setAll (g :: gs) l = setAll gs (set g.1 g.2 l) := rfl
    have hnext : ∀ h ∈ gs, (linesAt h.1 (set g.1 g.2 l)).filterMap f = [h].filterMap f := by
      intro h hh
      by_cases hk : g.1 = h.1
      · have hsame : g = h := hagree g List.mem_cons_self h (List.mem_cons_of_mem _ hh) hk
        rw [hsame, linesAt_eq, valuesAt_set_self]
        rfl
      · rw [linesAt_eq, valuesAt_set_ne hk, ← linesAt_eq]
        exact hlook h (List.mem_cons_of_mem _ hh)
    have hrest : ∀ h ∈ gs, ∀ h' ∈ gs, h.1 = h'.1 → h = h' := fun h hh h' hh' =>
      hagree h (List.mem_cons_of_mem _ hh) h' (List.mem_cons_of_mem _ hh')
    rw [hstep, filterMap_setAll_of_agree (hl.set g.1 g.2) hrest hnext]
    exact filterMap_set hl (hlook g List.mem_cons_self)

theorem filter_filterMap {owns : κ → ω → Bool} (howns : ∀ x w, f x = some w → ∀ k, owns k w = decide (x.1 = k)) (k : κ)
    (l : List (κ × ν)) : (l.filterMap f).filter (owns k) = (linesAt k l).filterMap f := by
  induction l with
  | nil => rfl
  | cons x l ih =>
    unfold linesAt at ih ⊢
    cases hx : f x with
    | none =>
      rw [List.filterMap_cons_none hx, ih, List.filter_cons]
      split
      · rw [List.filterMap_cons_none hx]
      · rfl
    | some w =>
      rw [List.filterMap_cons_some hx, List.filter_cons, List.filter_cons, howns x w hx k, ih]
      split
      · rw [List.filterMap_cons_some hx]
      · rfl

/-- **Setting lines changes no view exactly when each key looks the same with the last value set for it**: the view
keeps, for each line it shows, which key's it is. -/
theorem filterMap_setAll_iff {owns : κ → ω → Bool} (howns : ∀ x w, f x = some w → ∀ k, owns k w = decide (x.1 = k))
    (hl : Grouped l) (hs : List (κ × ν)) :
    (setAll hs l).filterMap f = l.filterMap f ↔
      ∀ k v, (valuesAt k hs).getLast? = some v → (linesAt k l).filterMap f = [(k, v)].filterMap f := by
  constructor
  · intro h k v hv
    have hset : linesAt k (setAll hs l) = [(k, v)] := by
      rw [linesAt_eq, valuesAt_setAll, hv]
      rfl
    rw [← filter_filterMap howns, ← h, filter_filterMap howns, hset]
  · intro h
    rw [← setAll_map_final]
    have hlast : ∀ x ∈ hs, ∃ v, (valuesAt x.1 hs).getLast? = some v ∧ final hs x = (x.1, v) := by
      intro x hx
      have hmem : x.2 ∈ valuesAt x.1 hs := mem_valuesAt.2 hx
      cases hv : (valuesAt x.1 hs).getLast? with
      | none =>
        rw [List.getLast?_eq_none_iff.1 hv] at hmem
        cases hmem
      | some v => exact ⟨v, rfl, by rw [final, hv, Option.getD_some]⟩
    apply filterMap_setAll_of_agree hl
    · intro y hy y' hy' hkey
      obtain ⟨x, hx, rfl⟩ := List.mem_map.1 hy
      obtain ⟨x', hx', rfl⟩ := List.mem_map.1 hy'
      obtain ⟨v, hv, hfinal⟩ := hlast x hx
      obtain ⟨v', hv', hfinal'⟩ := hlast x' hx'
      have hsame : x.1 = x'.1 := hkey
      rw [← hsame, hv] at hv'
      rw [hfinal, hfinal', ← hsame, Option.some.inj hv']
    · intro y hy
      obtain ⟨x, hx, rfl⟩ := List.mem_map.1 hy
      obtain ⟨v, hv, hfinal⟩ := hlast x hx
      rw [hfinal]
      exact h x.1 v hv

end Multimap
