import Mathlib.Data.List.AList
import Zaphyl.Text
/-!
# RateLimiter — fixed windows by key

A limiter counts the events of each key in windows that start at a first event and are counted anew once they have
lasted.  An event is refused exactly when its key's window is full (`check_eq_false_iff`), and no event changes
another key's window.
-/
namespace Zaphyl

structure Window where
  startMs : Nat
  count : Nat
deriving DecidableEq

structure RateLimiter where
  windowMs : Nat
  max : Nat
  windows : AList (fun _ : Str => Window)

namespace RateLimiter

def new (windowMs max : Nat) : RateLimiter := ⟨windowMs, max, ∅⟩

/-- The window an event of `key` falls into: a new one where the key has none, or one that has lasted. -/
def window (l : RateLimiter) (key : Str) (nowMs : Nat) : Window :=
  let window := (l.windows.lookup key).getD ⟨nowMs, 0⟩
  if l.windowMs ≤ nowMs - window.startMs then ⟨nowMs, 0⟩ else window

/-- Record an event; whether it is within the limit. -/
def check (l : RateLimiter) (key : Str) (nowMs : Nat) : Bool × RateLimiter :=
  let window := l.window key nowMs
  if window.count < l.max then
    (true, { l with windows := l.windows.insert key { window with count := window.count + 1 } })
  else (false, { l with windows := l.windows.insert key window })

variable {l : RateLimiter} {key : Str} {nowMs : Nat}

@[simp] theorem windowMs_check : (l.check key nowMs).2.windowMs = l.windowMs := by
  simp only [check]
  split <;> rfl

@[simp] theorem max_check : (l.check key nowMs).2.max = l.max := by
  simp only [check]
  split <;> rfl

/-- **An event is refused exactly when its key's window is full.** -/
theorem check_eq_false_iff : (l.check key nowMs).1 = false ↔ l.max ≤ (l.window key nowMs).count := by
  unfold check
  by_cases h : (l.window key nowMs).count < l.max
  · simp [h]
  · simp [h, Nat.le_of_not_lt h]

/-- **An event within the limit is counted in its window, and a refused one is not.** -/
theorem lookup_check_self : (l.check key nowMs).2.windows.lookup key =
    some { l.window key nowMs with
      count := (l.window key nowMs).count + if (l.check key nowMs).1 = true then 1 else 0 } := by
  unfold check
  by_cases h : (l.window key nowMs).count < l.max
  · simp [h]
  · simp [h]

/-- **An event leaves every other key's window as it was.** -/
theorem lookup_check_ne {k : Str} (h : k ≠ key) :
    (l.check key nowMs).2.windows.lookup k = l.windows.lookup k := by
  unfold check
  by_cases hfits : (l.window key nowMs).count < l.max
  · simp only [hfits, if_true, AList.lookup_insert_ne h]
  · simp only [hfits, if_false, AList.lookup_insert_ne h]

end RateLimiter
end Zaphyl
