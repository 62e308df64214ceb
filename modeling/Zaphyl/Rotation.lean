import Mathlib.Data.List.Rotate
import Mathlib.Data.List.Range
/-!
# Rotation — a list taken in turn, for ever

Turn `c` of a list is its element at `c` modulo its length.  A pick looks from a turn on for an element that passes,
for as many turns as the list is long, and takes whatever comes next when none does.  As many picks as elements pass
are those elements in the order of the rotation; when none passes, as many picks as there are elements are all of them.
-/
namespace Rotation

variable {α : Type} (p : α → Bool) (l : List α)

/-- The element at turn `c`. -/
def turn (c : Nat) : Option α := l[c % l.length]?

/-- Up to `tries` turns from `c` that look for an element that passes, and one more that takes any; with the turn that
comes next. -/
def scan : Nat → Nat → Option α × Nat
  | 0, c => (turn l c, c + 1)
  | tries + 1, c => if (turn l c).any p then (turn l c, c + 1) else scan tries (c + 1)

/-- `k` picks in sequence from turn `c`, and the turn that comes next. -/
def picks : Nat → Nat → List (Option α) × Nat
  | 0, c => ([], c)
  | k + 1, c =>
    let picked := scan p l l.length c
    let rest := picks k picked.2
    (picked.1 :: rest.1, rest.2)

/-- The elements of `m` turns from `c`. -/
def window (c m : Nat) : List (Option α) := (List.range' c m).map (turn l)

variable {p l}

theorem picks_add (j k c : Nat) :
    picks p l (j + k) c =
      ((picks p l j c).1 ++ (picks p l k (picks p l j c).2).1, (picks p l k (picks p l j c).2).2) := by
  induction j generalizing c with
  | zero =>
    rw [Nat.zero_add]
    rfl
  | succ j ih =>
    rw [Nat.succ_add]
    show ((scan p l l.length c).1 :: (picks p l (j + k) _).1, (picks p l (j + k) _).2) = _
    rw [ih]
    rfl

theorem length_picks (k c : Nat) : (picks p l k c).1.length = k := by
  induction k generalizing c with
  | zero => rfl
  | succ k ih =>
    show (picks p l k _).1.length + 1 = k + 1
    rw [ih]

theorem lt_scan (tries c : Nat) : c < (scan p l tries c).2 := by
  induction tries generalizing c with
  | zero => exact Nat.lt_succ_self c
  | succ tries ih =>
    rw [scan]
    split
    · exact Nat.lt_succ_self c
    · exact Nat.lt_trans (Nat.lt_succ_self c) (ih (c + 1))

theorem le_picks (k c : Nat) : c ≤ (picks p l k c).2 := by
  induction k generalizing c with
  | zero => exact Nat.le_refl c
  | succ k ih => exact Nat.le_trans (Nat.le_of_lt (lt_scan l.length c)) (ih _)

/-! ## A whole round -/

theorem window_succ (c m : Nat) : window l c (m + 1) = turn l c :: window l (c + 1) m := by
  unfold window
  rw [List.range'_succ, List.map_cons]

theorem turn_add_length (c : Nat) : turn l (c + l.length) = turn l c := by
  unfold turn
  rw [Nat.add_mod_right]

theorem window_add_length (c m : Nat) : window l (c + l.length) m = window l c m := by
  induction m generalizing c with
  | zero => rfl
  | succ m ih => rw [window_succ, window_succ, turn_add_length, Nat.add_right_comm, ih]

/-- **As many turns as there are elements are a rotation.** -/
theorem window_length (c : Nat) : window l c l.length = (l.rotate c).map some := by
  refine List.ext_getElem (by simp [window]) (fun i hi hi' => ?_)
  have hlt : i < l.length := by simpa [window] using hi
  have hmod : (c + i) % l.length < l.length := Nat.mod_lt _ (Nat.lt_of_le_of_lt (Nat.zero_le i) hlt)
  simp only [window, List.getElem_map, List.getElem_range', Nat.one_mul, turn, List.getElem_rotate]
  rw [List.getElem?_eq_getElem hmod]
  simp only [Nat.add_comm i c]

/-- An element that passes comes up within a round, from any turn. -/
theorem exists_turn (h : ∃ a ∈ l, p a = true) (c : Nat) : ∃ d < l.length, (turn l (c + d)).any p = true := by
  obtain ⟨a, ha, hp⟩ := h
  have hmem : some a ∈ window l c l.length := by
    rw [window_length]
    exact List.mem_map_of_mem (List.mem_rotate.2 ha)
  obtain ⟨i, hi, hturn⟩ := List.mem_map.1 hmem
  rw [List.mem_range'_1] at hi
  refine ⟨i - c, by omega, ?_⟩
  rw [Nat.add_sub_cancel' hi.1, hturn]
  exact hp

/-! ## Some element passes -/

/-- More tries than it takes change nothing. -/
theorem scan_eq_of_le {tries tries' : Nat} (hle : tries ≤ tries') {c : Nat}
    (h : ∃ d < tries, (turn l (c + d)).any p = true) : scan p l tries c = scan p l tries' c := by
  induction tries generalizing tries' c with
  | zero =>
    obtain ⟨d, hd, -⟩ := h
    exact absurd hd (Nat.not_lt_zero d)
  | succ tries ih =>
    obtain ⟨tries', rfl⟩ := Nat.exists_eq_succ_of_ne_zero (Nat.pos_iff_ne_zero.1 (Nat.lt_of_lt_of_le tries.succ_pos hle))
    rw [scan, scan]
    split
    · rfl
    · rename_i hnot
      refine ih (Nat.le_of_succ_le_succ hle) ?_
      obtain ⟨d, hd, hp⟩ := h
      cases d with
      | zero => exact absurd hp hnot
      | succ d => exact ⟨d, Nat.lt_of_succ_lt_succ hd, by rwa [Nat.succ_add_eq_add_succ]⟩

theorem scan_length_succ (h : ∃ a ∈ l, p a = true) {c : Nat} (hc : ¬ (turn l c).any p = true) :
    scan p l l.length c = scan p l l.length (c + 1) := by
  obtain ⟨n, hn⟩ := Nat.exists_eq_succ_of_ne_zero (fun h0 : l.length = 0 => by
    obtain ⟨a, ha, -⟩ := h
    rw [List.length_eq_zero_iff.1 h0] at ha
    cases ha)
  have hfirst : scan p l l.length c = scan p l n (c + 1) := by
    rw [hn, scan, if_neg hc]
  rw [hfirst]
  refine scan_eq_of_le (by omega) ?_
  obtain ⟨d, hd, hp⟩ := exists_turn h c
  cases d with
  | zero => exact absurd hp hc
  | succ d => exact ⟨d, by omega, by rwa [Nat.succ_add_eq_add_succ]⟩

/-- **As many picks as elements pass in a window are those elements**, in its order. -/
theorem picks_window (h : ∃ a ∈ l, p a = true) (m c : Nat) :
    (picks p l ((window l c m).filter (Option.any p)).length c).1 = (window l c m).filter (Option.any p) := by
  induction m generalizing c with
  | zero => rfl
  | succ m ih =>
    rw [window_succ]
    by_cases hc : (turn l c).any p = true
    · have hscan : scan p l l.length c = (turn l c, c + 1) := by
        obtain ⟨d, hd, -⟩ := exists_turn h c
        obtain ⟨n, hn⟩ := Nat.exists_eq_succ_of_ne_zero (Nat.pos_iff_ne_zero.1 (Nat.lt_of_le_of_lt (Nat.zero_le d) hd))
        rw [hn, scan, if_pos hc]
      rw [List.filter_cons_of_pos hc, List.length_cons, picks, hscan]
      show turn l c :: (picks p l _ (c + 1)).1 = _
      rw [ih (c + 1)]
    · rw [List.filter_cons_of_neg hc]
      have ih := ih (c + 1)
      cases hk : ((window l (c + 1) m).filter (Option.any p)).length with
      | zero =>
        rw [List.length_eq_zero_iff.1 hk]
        rfl
      | succ k =>
        rw [hk] at ih
        rw [← ih, picks, picks, scan_length_succ h hc]

/-- **As many picks as elements pass are the elements that pass, in the order of the rotation.** -/
theorem picks_filter (h : ∃ a ∈ l, p a = true) (c : Nat) :
    (picks p l (l.filter p).length c).1 = ((l.rotate c).filter p).map some := by
  have hwindow : (window l c l.length).filter (Option.any p) = ((l.rotate c).filter p).map some := by
    rw [window_length, List.filter_map]
    rfl
  have hlength : (l.filter p).length = ((window l c l.length).filter (Option.any p)).length := by
    rw [hwindow, List.length_map]
    exact (((List.rotate_perm l c).filter p).length_eq).symm
  rw [hlength, picks_window h, hwindow]

/-! ## No element passes -/

theorem scan_of_none (h : ∀ a ∈ l, p a = false) (tries c : Nat) :
    scan p l tries c = (turn l (c + tries), c + tries + 1) := by
  induction tries generalizing c with
  | zero => rfl
  | succ tries ih =>
    have hnot : ¬ (turn l c).any p = true := by
      intro hp
      obtain ⟨a, ha, hpa⟩ := (Option.any_eq_true ..).1 hp
      rw [h a (List.mem_of_getElem? ha)] at hpa
      cases hpa
    rw [scan, if_neg hnot, ih, Nat.succ_add_eq_add_succ]

/-- **When no element passes, the picks are the turns one by one.** -/
theorem picks_of_none (h : ∀ a ∈ l, p a = false) (k c : Nat) : (picks p l k c).1 = window l c k := by
  induction k generalizing c with
  | zero => rfl
  | succ k ih =>
    rw [picks, scan_of_none h, window_succ, turn_add_length]
    show turn l c :: (picks p l k (c + l.length + 1)).1 = _
    rw [ih, Nat.add_right_comm, window_add_length]

end Rotation
