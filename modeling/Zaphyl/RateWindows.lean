import Zaphyl.FixedWindow
import Zaphyl.RateLimiter
/-!
# RateWindows — what the limiter allows over a run

The calls for one key see a fixed-window counter of their own: their outcomes depend on no call for another key
(`eventsOf_eq_log`).  Over any run with times in order a key gets at most `max` calls through in a window and twice as
many in any interval of its length, and is refused only for `max` allowed calls within the last window.
-/
namespace Zaphyl

structure RateCall where
  key : Str
  nowMs : Nat
deriving DecidableEq

namespace RateLimiter

open FixedWindow (Event allowedWhere allowedIn)

/-- A call inserts its key's window or resets it. -/
def begins (l : RateLimiter) (key : Str) (nowMs : Nat) : Bool :=
  (l.windows.lookup key).all (fun w => l.windowMs ≤ nowMs - w.startMs)

/-- The outcomes of a run of calls, by key. -/
def outcomes (l : RateLimiter) : List RateCall → List (Str × Event)
  | [] => []
  | call :: calls =>
    (call.key, ⟨call.nowMs, l.begins call.key call.nowMs, (l.check call.key call.nowMs).1⟩) ::
      outcomes (l.check call.key call.nowMs).2 calls

def eventsOf (l : RateLimiter) (key : Str) (calls : List RateCall) : List Event :=
  ((l.outcomes calls).filter (fun o => o.1 = key)).map Prod.snd

def timesOf (key : Str) (calls : List RateCall) : List Nat :=
  (calls.filter (fun c => c.key = key)).map RateCall.nowMs

/-! ## One key's counter -/

def counter (w : Window) : FixedWindow.Window := ⟨w.startMs, w.count⟩

def counterOf (l : RateLimiter) (key : Str) : Option FixedWindow.Window := (l.windows.lookup key).map counter

theorem begins_eq (l : RateLimiter) (key : Str) (nowMs : Nat) :
    l.begins key nowMs = FixedWindow.begins l.windowMs (l.counterOf key) nowMs := by
  unfold begins FixedWindow.begins counterOf
  rw [Option.all_map]
  rfl

theorem counter_window (l : RateLimiter) (key : Str) (nowMs : Nat) :
    counter (l.window key nowMs) = FixedWindow.opened l.windowMs (l.counterOf key) nowMs := by
  unfold window FixedWindow.opened FixedWindow.begins counterOf
  cases l.windows.lookup key with
  | none => simp [counter]
  | some w =>
    by_cases h : l.windowMs ≤ nowMs - w.startMs
    · simp [counter, h]
    · simp [counter, h]

theorem check_eq_event (l : RateLimiter) (key : Str) (nowMs : Nat) :
    (l.check key nowMs).1 = (FixedWindow.event l.windowMs l.max (l.counterOf key) nowMs).allowed := by
  have hcount : (l.window key nowMs).count = (FixedWindow.opened l.windowMs (l.counterOf key) nowMs).count := by
    rw [← counter_window]
    rfl
  show _ = decide ((FixedWindow.opened l.windowMs (l.counterOf key) nowMs).count < l.max)
  rw [← hcount]
  cases h : (l.check key nowMs).1 with
  | false =>
    have := check_eq_false_iff.1 h
    simpa using this
  | true =>
    have hfits : ¬ l.max ≤ (l.window key nowMs).count := fun hle => by
      rw [check_eq_false_iff.2 hle] at h
      cases h
    simpa using hfits

/-- **A call counts in its key's counter.** -/
theorem counterOf_check_self (l : RateLimiter) (key : Str) (nowMs : Nat) :
    (l.check key nowMs).2.counterOf key =
      some (FixedWindow.counted l.windowMs l.max (l.counterOf key) nowMs) := by
  unfold counterOf
  rw [lookup_check_self, Option.map_some, check_eq_event, ← counterOf]
  have hwindow := counter_window l key nowMs
  have hstart := FixedWindow.start_counted l.windowMs l.max (l.counterOf key) nowMs
  have hcount := FixedWindow.count_counted l.windowMs l.max (l.counterOf key) nowMs
  rw [← hwindow] at hstart hcount
  cases hcounted : FixedWindow.counted l.windowMs l.max (l.counterOf key) nowMs with
  | mk start count =>
    rw [hcounted] at hstart hcount
    simp only at hstart hcount
    rw [hstart, hcount]
    rfl

/-- **A call leaves the other counters as they were.** -/
theorem counterOf_check_ne (l : RateLimiter) {key k : Str} (h : k ≠ key) (nowMs : Nat) :
    (l.check key nowMs).2.counterOf k = l.counterOf k := by
  unfold counterOf
  rw [lookup_check_ne h]

/-- **The outcomes for a key are those of its own counter** at the times of its own calls. -/
theorem eventsOf_eq_log (key : Str) : ∀ (calls : List RateCall) (l : RateLimiter),
    l.eventsOf key calls = FixedWindow.log l.windowMs l.max (l.counterOf key) (timesOf key calls)
  | [], _ => rfl
  | call :: calls, l => by
    have ih := eventsOf_eq_log key calls (l.check call.key call.nowMs).2
    rw [windowMs_check, max_check] at ih
    by_cases hkey : call.key = key
    · have hevents : l.eventsOf key (call :: calls) =
          ⟨call.nowMs, l.begins call.key call.nowMs, (l.check call.key call.nowMs).1⟩ ::
            (l.check call.key call.nowMs).2.eventsOf key calls := by
        unfold eventsOf
        rw [outcomes, List.filter_cons_of_pos (by simpa using hkey), List.map_cons]
      have htimes : timesOf key (call :: calls) = call.nowMs :: timesOf key calls := by
        unfold timesOf
        rw [List.filter_cons_of_pos (by simpa using hkey), List.map_cons]
      rw [hevents, htimes, FixedWindow.log, ih]
      subst hkey
      rw [counterOf_check_self, check_eq_event, begins_eq]
      rfl
    · have hevents : l.eventsOf key (call :: calls) = (l.check call.key call.nowMs).2.eventsOf key calls := by
        unfold eventsOf
        rw [outcomes, List.filter_cons_of_neg (by simpa using hkey)]
      have htimes : timesOf key (call :: calls) = timesOf key calls := by
        unfold timesOf
        rw [List.filter_cons_of_neg (by simpa using hkey)]
      rw [hevents, htimes, ih, counterOf_check_ne l (Ne.symm hkey)]

theorem timesOf_pairwise {calls : List RateCall} (h : calls.Pairwise (fun c d => c.nowMs ≤ d.nowMs)) (key : Str) :
    (timesOf key calls).Pairwise (· ≤ ·) :=
  List.pairwise_map.2 (h.filter _)

/-! ## Over a run -/

/-- **A key's windows begin a window's length apart, and at most `max` of its calls are allowed in one**; so at most
twice `max` are allowed in any interval of that length. -/
theorem allowed_over_windows (l : RateLimiter) (hlength : 0 < l.windowMs) (calls : List RateCall)
    (hs : calls.Pairwise (fun c d => c.nowMs ≤ d.nowMs)) (key : Str) :
    (∀ earlier part later, l.eventsOf key calls = earlier ++ part ++ later → (∀ e ∈ part.tail, e.begins = false) →
      allowedWhere (fun _ => true) part ≤ l.max) ∧
    (∀ earlier a middle b later, l.eventsOf key calls = earlier ++ a :: middle ++ b :: later →
      a.begins = true → b.begins = true → a.time + l.windowMs ≤ b.time) ∧
    ∀ t, allowedIn l.windowMs t (l.eventsOf key calls) ≤ 2 * l.max := by
  have htimes := timesOf_pairwise hs key
  rw [eventsOf_eq_log]
  refine ⟨fun earlier part later h hpart => ?_, fun earlier a middle b later h ha hb => ?_, fun t => ?_⟩
  · exact FixedWindow.allowed_in_window_le h hpart
  · exact FixedWindow.begins_apart hlength htimes h ha hb
  · exact FixedWindow.allowedIn_log_le hlength t _ htimes

/-- **A call is refused only behind `max` allowed calls for its key within the last window**, and the calls for other
keys change none of a key's outcomes. -/
theorem refused_for_its_own_calls (windowMs max : Nat) (calls : List RateCall)
    (hs : calls.Pairwise (fun c d => c.nowMs ≤ d.nowMs)) (key : Str) :
    (∀ earlier e later, (new windowMs max).eventsOf key calls = earlier ++ e :: later → e.allowed = false →
      max ≤ allowedWhere (fun b => decide (e.time < b.time + windowMs) && decide (b.time ≤ e.time)) earlier) ∧
    (new windowMs max).eventsOf key calls = (new windowMs max).eventsOf key (calls.filter (fun c => c.key = key)) := by
  constructor
  · intro earlier e later h hrefused
    rw [eventsOf_eq_log] at h
    exact FixedWindow.refused_in_log (timesOf_pairwise hs key) h hrefused
  · rw [eventsOf_eq_log, eventsOf_eq_log]
    unfold timesOf
    rw [List.filter_filter]
    simp only [Bool.and_self]

/-- Three calls for one key around a call for another. -/
def busyCalls : List RateCall :=
  [⟨"192.0.2.1".toList, 0⟩, ⟨"192.0.2.2".toList, 10⟩, ⟨"192.0.2.1".toList, 500⟩, ⟨"192.0.2.1".toList, 1000⟩]

theorem busyCalls_allowed :
    0 < (new 1000 1).windowMs ∧ busyCalls.Pairwise (fun c d => c.nowMs ≤ d.nowMs) ∧
      ((new 1000 1).eventsOf "192.0.2.1".toList busyCalls).map Event.allowed = [true, false, true] ∧
      allowedIn 1000 1 ((new 1000 1).eventsOf "192.0.2.1".toList busyCalls) ≤ 2 :=
  have hs : busyCalls.Pairwise (fun c d => c.nowMs ≤ d.nowMs) := by decide
  ⟨by decide, hs, rfl, (allowed_over_windows (new 1000 1) (by decide) busyCalls hs "192.0.2.1".toList).2.2 1⟩

theorem busyCalls_refused :
    busyCalls.Pairwise (fun c d => c.nowMs ≤ d.nowMs) ∧
      (new 1000 1).eventsOf "192.0.2.1".toList busyCalls =
        (new 1000 1).eventsOf "192.0.2.1".toList (busyCalls.filter (fun c => c.key = "192.0.2.1".toList)) :=
  have hs : busyCalls.Pairwise (fun c d => c.nowMs ≤ d.nowMs) := by decide
  ⟨hs, (refused_for_its_own_calls 1000 1 busyCalls hs "192.0.2.1".toList).2⟩

end RateLimiter
end Zaphyl
