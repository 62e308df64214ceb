import Mathlib.Data.List.Sort
/-!
# FixedWindow — counting events in windows of one length

A counter allows up to `max` events in a window; the first event, and every event after its window has lasted, begins
a new one.  Of events in the order of their times, at most `max` are allowed in a window and at most twice as many in
any interval of a window's length (`allowedIn_log_le`); an event is refused only behind `max` allowed ones within the
last window's length (`refused_in_log`).
-/
namespace FixedWindow

structure Window where
  start : Nat
  count : Nat
deriving DecidableEq

structure Event where
  time : Nat
  begins : Bool
  allowed : Bool
deriving DecidableEq

variable (length max : Nat)

def begins (w : Option Window) (now : Nat) : Bool := w.all (fun w => length ≤ now - w.start)

/-- The window an event falls into. -/
def opened (w : Option Window) (now : Nat) : Window :=
  if begins length w now then ⟨now, 0⟩ else w.getD ⟨now, 0⟩

def event (w : Option Window) (now : Nat) : Event :=
  ⟨now, begins length w now, decide ((opened length w now).count < max)⟩

/-- The window after an event: an allowed one is counted. -/
def counted (w : Option Window) (now : Nat) : Window :=
  let window := opened length w now
  if window.count < max then { window with count := window.count + 1 } else window

def log : Option Window → List Nat → List Event
  | _, [] => []
  | w, now :: times => event length max w now :: log (some (counted length max w now)) times

/-- How many events of a kind were allowed. -/
def allowedWhere (p : Event → Bool) (events : List Event) : Nat := events.countP (fun e => e.allowed && p e)

def allowedIn (t : Nat) (events : List Event) : Nat :=
  allowedWhere (fun e => decide (t ≤ e.time) && decide (e.time < t + length)) events

section
variable {length max}

theorem time_mem_of_mem_log : ∀ {times : List Nat} {w : Option Window} {e : Event}, e ∈ log length max w times →
    e.time ∈ times
  | now :: times, w, e, h => by
    rcases List.mem_cons.1 h with rfl | h
    · exact List.mem_cons_self
    · exact List.mem_cons_of_mem _ (time_mem_of_mem_log h)

theorem opened_of_begins {w : Option Window} {now : Nat} (h : begins length w now = true) :
    opened length w now = ⟨now, 0⟩ := by
  rw [opened, if_pos h]

theorem opened_of_lasting {w : Window} {now : Nat} (h : now < w.start + length) (hl : 0 < length) :
    opened length (some w) now = w ∧ begins length (some w) now = false := by
  have hno : begins length (some w) now = false := by
    simp [begins]
    omega
  exact ⟨by simp [opened, hno], hno⟩

theorem start_opened_le {w : Option Window} {now : Nat} (h : ∀ v, w = some v → v.start ≤ now) :
    (opened length w now).start ≤ now := by
  unfold opened
  split
  · exact Nat.le_refl _
  · cases w with
    | none => exact Nat.le_refl _
    | some v => exact h v rfl

theorem start_counted (length max : Nat) (w : Option Window) (now : Nat) :
    (counted length max w now).start = (opened length w now).start := by
  unfold counted
  simp only
  split <;> rfl

/-- An event's count goes up by one exactly when it is allowed. -/
theorem count_counted (length max : Nat) (w : Option Window) (now : Nat) :
    (counted length max w now).count =
      (opened length w now).count + if (event length max w now).allowed = true then 1 else 0 := by
  unfold counted event
  simp only [decide_eq_true_eq]
  split <;> rfl

end

/-! ## What is allowed -/

section
variable {length max} {p : Event → Bool}

theorem allowedWhere_cons (e : Event) (events : List Event) :
    allowedWhere p (e :: events) = allowedWhere p events + if (e.allowed && p e) = true then 1 else 0 :=
  List.countP_cons

theorem allowedWhere_eq_zero {events : List Event} (h : ∀ e ∈ events, p e = false) : allowedWhere p events = 0 := by
  unfold allowedWhere
  rw [List.countP_eq_zero]
  intro e he
  simp [h e he]

/-- An event is allowed from what is left of its window, and leaves the less to those that follow. -/
theorem allowedWhere_log_cons_le {w : Option Window} {now : Nat} {times : List Nat} {more : Nat}
    (h : allowedWhere p (log length max (some (counted length max w now)) times) ≤
      max - (counted length max w now).count + more) :
    allowedWhere p (log length max w (now :: times)) ≤ max - (opened length w now).count + more := by
  have hcount := count_counted length max w now
  rw [log, allowedWhere_cons]
  cases hallowed : (event length max w now).allowed with
  | true =>
    have hfits : (opened length w now).count < max := by
      simpa [event] using hallowed
    rw [hallowed, if_pos rfl] at hcount
    rw [Bool.true_and]
    split <;> omega
  | false =>
    rw [hallowed, if_neg (by decide), Nat.add_zero] at hcount
    rw [Bool.false_and, if_neg (by decide), Nat.add_zero]
    omega

/-- **In the rest of a window no more is allowed than is left of it**: of events that are of the kind `p` only while
the window lasts. -/
theorem allowedWhere_log_le (hl : 0 < length) : ∀ {times : List Nat} (w : Window), times.Pairwise (· ≤ ·) →
    (∀ e : Event, p e = true → e.time < w.start + length) →
    allowedWhere p (log length max (some w) times) ≤ max - w.count
  | [], w, _, _ => Nat.zero_le _
  | now :: times, w, hs, hp => by
    obtain ⟨hle, hs⟩ := List.pairwise_cons.1 hs
    by_cases hnow : now < w.start + length
    · obtain ⟨hopened, -⟩ := opened_of_lasting hnow hl
      have hstart := start_counted length max (some w) now
      rw [hopened] at hstart
      have ih := allowedWhere_log_le hl (counted length max (some w) now) hs (by rwa [hstart])
      have hle := allowedWhere_log_cons_le (Nat.le_trans ih (Nat.le_add_right _ 0))
      rwa [hopened] at hle
    · -- no later event is of the kind
      rw [allowedWhere_eq_zero (fun e he => ?_)]
      · exact Nat.zero_le _
      · have hmem := time_mem_of_mem_log he
        have hlater : now ≤ e.time := by
          rcases List.mem_cons.1 hmem with h | h
          · omega
          · exact hle _ h
        cases hpe : p e with
        | false => rfl
        | true =>
          have := hp e hpe
          omega

/-- **Behind a window's first event no more is allowed than is left of it**, until an event begins the next. -/
theorem allowed_log_le_of_lasting : ∀ {times : List Nat} (w : Window),
    (∀ e ∈ log length max (some w) times, e.begins = false) →
    allowedWhere (fun _ => true) (log length max (some w) times) ≤ max - w.count
  | [], w, _ => Nat.zero_le _
  | now :: times, w, h => by
    obtain ⟨hhead, hrest⟩ := List.forall_mem_cons.1 h
    have hopened : opened length (some w) now = w := by
      have hbegins : begins length (some w) now = false := hhead
      simp [opened, hbegins]
    have ih := allowed_log_le_of_lasting (counted length max (some w) now) hrest
    have hle := allowedWhere_log_cons_le (Nat.le_trans ih (Nat.le_add_right _ 0))
    rwa [hopened] at hle

theorem log_eq_append : ∀ {times : List Nat} {w : Option Window} {as bs : List Event},
    log length max w times = as ++ bs → ∃ w' ts us, times = ts ++ us ∧ as = log length max w ts ∧
      bs = log length max w' us
  | times, w, [], bs, h => ⟨w, [], times, rfl, rfl, h.symm⟩
  | now :: times, w, a :: as, bs, h => by
    rw [log, List.cons_append, List.cons_eq_cons] at h
    obtain ⟨rfl, hrest⟩ := h
    obtain ⟨w', ts, us, rfl, has, hbs⟩ := log_eq_append hrest
    exact ⟨w', now :: ts, us, rfl, by rw [has, log], hbs⟩

/-- **No more than `max` events are allowed in a window**: in a part of a log of which only the first event may begin
one. -/
theorem allowed_in_window_le {times : List Nat} {w : Option Window} {earlier part later : List Event}
    (h : log length max w times = earlier ++ part ++ later) (hpart : ∀ e ∈ part.tail, e.begins = false) :
    allowedWhere (fun _ => true) part ≤ max := by
  obtain ⟨w₁, ts, us, -, hfront, -⟩ := log_eq_append h
  obtain ⟨w₂, -, times, -, -, rfl⟩ := log_eq_append hfront.symm
  cases times with
  | nil => exact Nat.zero_le _
  | cons now times =>
    have hrest := allowed_log_le_of_lasting (counted length max w₂ now) hpart
    have hle := allowedWhere_log_cons_le (Nat.le_trans hrest (Nat.le_add_right _ 0))
    omega

/-- An event that begins a window comes a window's length after the one before began. -/
theorem start_add_length_le (hl : 0 < length) : ∀ {times : List Nat} (w : Window), times.Pairwise (· ≤ ·) →
    (∀ now ∈ times, w.start ≤ now) → ∀ e ∈ log length max (some w) times, e.begins = true → w.start + length ≤ e.time
  | now :: times, w, hs, hw, e, he, hbegins => by
    obtain ⟨hle, hs⟩ := List.pairwise_cons.1 hs
    rcases List.mem_cons.1 he with rfl | he
    · have hlasted : length ≤ now - w.start := by
        simpa [event, begins] using hbegins
      show w.start + length ≤ now
      omega
    · have hstart : w.start ≤ (counted length max (some w) now).start ∧ (counted length max (some w) now).start ≤ now := by
        rw [start_counted, opened]
        have := hw now List.mem_cons_self
        split
        · exact ⟨this, Nat.le_refl _⟩
        · exact ⟨Nat.le_refl _, this⟩
      have ih := start_add_length_le hl (counted length max (some w) now) hs
        (fun later hlater => Nat.le_trans hstart.2 (hle later hlater)) e he hbegins
      omega

/-- **Windows begin a window's length apart.** -/
theorem begins_apart (hl : 0 < length) {times : List Nat} (hs : times.Pairwise (· ≤ ·)) {w : Option Window}
    {earlier middle later : List Event} {a b : Event}
    (h : log length max w times = earlier ++ a :: middle ++ b :: later) (ha : a.begins = true) (hb : b.begins = true) :
    a.time + length ≤ b.time := by
  rw [List.append_assoc] at h
  obtain ⟨w', ts, us, rfl, -, hback⟩ := log_eq_append h
  cases us with
  | nil => cases hback
  | cons now us =>
    obtain ⟨hle, hs⟩ := List.pairwise_cons.1 (List.pairwise_append.1 hs).2.1
    rw [log, List.cons_append, List.cons_eq_cons] at hback
    obtain ⟨rfl, hrest⟩ := hback
    have hstart : (counted length max w' now).start = now := by
      rw [start_counted, opened_of_begins ha]
    have hb' : b ∈ log length max (some (counted length max w' now)) us := by
      rw [← hrest]
      simp
    have := start_add_length_le hl (counted length max w' now) hs (by rw [hstart]; exact hle) b hb' hb
    rwa [hstart] at this

/-- From a time on, an interval of a window's length sees the rest of one window and one more. -/
theorem allowedIn_log_le_of_from (hl : 0 < length) {t : Nat} : ∀ {times : List Nat} (w : Window),
    times.Pairwise (· ≤ ·) → (∀ now ∈ times, t ≤ now) →
    allowedIn length t (log length max (some w) times) ≤ max - w.count + max
  | [], w, _, _ => Nat.zero_le _
  | now :: times, w, hs, ht => by
    obtain ⟨-, hs'⟩ := List.pairwise_cons.1 hs
    have htnow : t ≤ now := ht now List.mem_cons_self
    by_cases hbegins : begins length (some w) now = true
    · -- the new window lasts as long as the interval
      have hopened := opened_of_begins hbegins
      have hstart : (counted length max (some w) now).start = now := by
        rw [start_counted, hopened]
      have hrest : allowedIn length t (log length max (some (counted length max (some w) now)) times) ≤
          max - (counted length max (some w) now).count := by
        refine allowedWhere_log_le hl _ hs' (fun e he => ?_)
        rw [Bool.and_eq_true, decide_eq_true_eq, decide_eq_true_eq] at he
        omega
      rw [allowedIn] at hrest ⊢
      have hle := allowedWhere_log_cons_le (Nat.le_trans hrest (Nat.le_add_right _ 0))
      omega
    · have hopened : opened length (some w) now = w := by
        rw [opened, if_neg hbegins, Option.getD_some]
      have ih := allowedIn_log_le_of_from hl (counted length max (some w) now) hs'
        (fun later hlater => ht later (List.mem_cons_of_mem _ hlater))
      rw [allowedIn] at ih ⊢
      have hle := allowedWhere_log_cons_le ih
      rwa [hopened] at hle

/-- **In an interval of a window's length at most twice `max` events are allowed.** -/
theorem allowedIn_log_le (hl : 0 < length) (t : Nat) : ∀ {times : List Nat} (w : Option Window),
    times.Pairwise (· ≤ ·) → allowedIn length t (log length max w times) ≤ 2 * max
  | [], w, _ => Nat.zero_le _
  | now :: times, w, hs => by
    obtain ⟨hle, hs'⟩ := List.pairwise_cons.1 hs
    by_cases ht : t ≤ now
    · have hfrom : ∀ later ∈ now :: times, t ≤ later := by
        intro later hlater
        rcases List.mem_cons.1 hlater with rfl | hlater
        · exact ht
        · exact Nat.le_trans ht (hle later hlater)
      cases w with
      | some w =>
        have hboth : allowedIn length t (log length max (some w) (now :: times)) ≤ max - w.count + max :=
          allowedIn_log_le_of_from hl w hs hfrom
        omega
      | none =>
        -- a first event is counted like one of a window that has just begun
        have hsame : log length max none (now :: times) =
            { event length max (some ⟨now, 0⟩) now with begins := true } ::
              log length max (some (counted length max (some ⟨now, 0⟩) now)) times := by
          simp [log, event, counted, opened, begins]
        have hboth : allowedIn length t (log length max (some ⟨now, 0⟩) (now :: times)) ≤ max - 0 + max :=
          allowedIn_log_le_of_from hl ⟨now, 0⟩ hs hfrom
        rw [log, allowedIn, allowedWhere_cons] at hboth
        rw [hsame, allowedIn, allowedWhere_cons]
        simp only at hboth ⊢
        omega
    · have ih := allowedIn_log_le hl t (some (counted length max w now)) hs'
      have hout : decide (t ≤ (event length max w now).time) = false := decide_eq_false ht
      rw [log, allowedIn, allowedWhere_cons]
      rw [allowedIn] at ih
      rw [hout, Bool.false_and, Bool.and_false, if_neg (by decide)]
      exact ih

end

/-! ## What is refused -/

/-- A window counts no more events than were allowed since it began. -/
def Counts (before : List Event) (w : Option Window) : Prop :=
  ∀ v, w = some v → v.count ≤ allowedWhere (fun e => decide (v.start ≤ e.time)) before

section
variable {length max}

theorem counts_counted {before : List Event} {w : Option Window} {now : Nat} (h : Counts before w)
    (hstart : ∀ v, w = some v → v.start ≤ now) :
    Counts (before ++ [event length max w now]) (some (counted length max w now)) := by
  rintro v hv
  cases hv
  have hopened : (opened length w now).count ≤
      allowedWhere (fun e => decide ((opened length w now).start ≤ e.time)) before := by
    unfold opened
    split
    · exact Nat.zero_le _
    · cases w with
      | none => exact Nat.zero_le _
      | some v => exact h v rfl
  rw [start_counted, count_counted]
  have hsplit : allowedWhere (fun e => decide ((opened length w now).start ≤ e.time)) (before ++ [event length max w now]) =
      allowedWhere (fun e => decide ((opened length w now).start ≤ e.time)) before +
        if (event length max w now).allowed = true then 1 else 0 := by
    have hnow : (opened length w now).start ≤ (event length max w now).time := start_opened_le hstart
    unfold allowedWhere
    simp only [List.countP_append, List.countP_cons, List.countP_nil, hnow, decide_true, Bool.and_true, Nat.zero_add]
  omega

/-- A window that refuses an event counts `max` events of the last window's length. -/
theorem justified_of_refused {before : List Event} {w : Option Window} {now : Nat} (h : Counts before w)
    (hbefore : ∀ e ∈ before, e.time ≤ now) (hrefused : (event length max w now).allowed = false) :
    max ≤ allowedWhere (fun e => decide (now < e.time + length) && decide (e.time ≤ now)) before := by
  have hfull : max ≤ (opened length w now).count := by
    simpa [event] using hrefused
  unfold opened at hfull
  split at hfull
  · exact Nat.le_trans hfull (Nat.zero_le _)
  · rename_i hlasting
    cases w with
    | none => exact Nat.le_trans hfull (Nat.zero_le _)
    | some v =>
      have hlt : now - v.start < length := by
        simpa [begins] using hlasting
      refine Nat.le_trans hfull (Nat.le_trans (h v rfl) (List.countP_mono_left (fun e he hcounted => ?_)))
      rw [Bool.and_eq_true, decide_eq_true_eq] at hcounted
      have hle := hbefore e he
      have hin : now < e.time + length := by omega
      simp [hcounted.1, hin, hle]

theorem refused_in_log_of_counts : ∀ {times : List Nat} {w : Option Window} {before earlier later : List Event} {e : Event},
    Counts before w → (∀ v, w = some v → ∀ now ∈ times, v.start ≤ now) → (∀ b ∈ before, ∀ now ∈ times, b.time ≤ now) →
    times.Pairwise (· ≤ ·) → log length max w times = earlier ++ e :: later → e.allowed = false →
    max ≤ allowedWhere (fun b => decide (e.time < b.time + length) && decide (b.time ≤ e.time)) (before ++ earlier)
  | [], w, before, earlier, later, e, _, _, _, _, h, _ => by
    cases earlier <;> cases h
  | now :: times, w, before, earlier, later, e, hc, hw, hb, hs, h, hrefused => by
    obtain ⟨hle, hs⟩ := List.pairwise_cons.1 hs
    have hnow : ∀ b ∈ before, b.time ≤ now := fun b hmem => hb b hmem now List.mem_cons_self
    cases earlier with
    | nil =>
      rw [log, List.nil_append, List.cons_eq_cons] at h
      obtain ⟨rfl, -⟩ := h
      rw [List.append_nil]
      exact justified_of_refused hc hnow hrefused
    | cons a earlier =>
      rw [log, List.cons_append, List.cons_eq_cons] at h
      obtain ⟨rfl, h⟩ := h
      have hstart : ∀ v, w = some v → v.start ≤ now := fun v hv => hw v hv now List.mem_cons_self
      rw [← List.singleton_append, ← List.append_assoc]
      refine refused_in_log_of_counts (counts_counted hc hstart) ?_ ?_ hs h hrefused
      · rintro v hv later hlater
        cases hv
        rw [start_counted]
        exact Nat.le_trans (start_opened_le hstart) (hle later hlater)
      · intro b hmem later hlater
        rcases List.mem_append.1 hmem with hmem | hmem
        · exact Nat.le_trans (hnow b hmem) (hle later hlater)
        · rw [List.mem_singleton] at hmem
          subst hmem
          exact hle later hlater

/-- **An event is refused only behind `max` allowed ones within the last window's length.** -/
theorem refused_in_log {times : List Nat} (hs : times.Pairwise (· ≤ ·)) {earlier later : List Event} {e : Event}
    (h : log length max none times = earlier ++ e :: later) (hrefused : e.allowed = false) :
    max ≤ allowedWhere (fun b => decide (e.time < b.time + length) && decide (b.time ≤ e.time)) earlier := by
  have hnone : Counts [] none := fun v hv => by cases hv
  exact refused_in_log_of_counts hnone (fun v hv => by cases hv) (fun b hb => by cases hb) hs h hrefused

end
end FixedWindow
