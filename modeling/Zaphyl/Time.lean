import Mathlib.Algebra.Order.Ring.Int
/-!
# Time — the wall clock

A `SystemTime` is a signed 64-bit count of seconds and a nanosecond part, counted here in nanoseconds from the Unix
epoch.  Adding a duration panics when the seconds do not fit.
-/
namespace Zaphyl

/-- What a panicking operation leaves: the reason, and no value. -/
inductive Panic
  | timeOverflow
deriving DecidableEq, Repr

/-- A duration in whole seconds, as `Duration::from_secs` makes it. -/
abbrev Duration := Nat

def nanosPerSec : Int := 1000000000

/-- The first nanosecond past the last second, `i64::MAX`. -/
def endOfTime : Int := 9223372036854775808 * nanosPerSec

structure SystemTime where
  nanos : Int
  lower : -endOfTime ≤ nanos
  upper : nanos < endOfTime
deriving DecidableEq

namespace SystemTime

@[ext] theorem ext' {s t : SystemTime} (h : s.nanos = t.nanos) : s = t := by
  cases s; cases t; cases h; rfl

def epoch : SystemTime := ⟨0, by decide, by decide⟩

def after (self other : SystemTime) : Bool := decide (other.nanos < self.nanos)

def checkedAdd (t : SystemTime) (d : Duration) : Option SystemTime :=
  if h : t.nanos + d * nanosPerSec < endOfTime then
    some ⟨t.nanos + d * nanosPerSec,
      Int.le_trans t.lower (Int.le_add_of_nonneg_right (Int.mul_nonneg (Int.natCast_nonneg d) (by decide))), h⟩
  else none

def add (t : SystemTime) (d : Duration) : Except Panic SystemTime :=
  match t.checkedAdd d with
  | some s => .ok s
  | none => .error .timeOverflow

/-- `duration_since(UNIX_EPOCH).map_or(0, |d| d.as_secs())`. -/
def unixSecs (t : SystemTime) : Nat := (t.nanos / nanosPerSec).toNat

theorem unixSecs_lt (t : SystemTime) : t.unixSecs < 9223372036854775808 := by
  have := t.upper
  unfold endOfTime nanosPerSec at this
  unfold unixSecs nanosPerSec
  omega

/-- A time from the epoch on, without its part of a second. -/
def truncSecs (t : SystemTime) : SystemTime :=
  ⟨t.unixSecs * nanosPerSec, by unfold endOfTime nanosPerSec; omega,
    by have := t.unixSecs_lt; unfold endOfTime nanosPerSec; omega⟩

/-- **An addition gives a time exactly when the sum is one.** -/
theorem add_eq_ok_iff {t s : SystemTime} {d : Duration} : t.add d = .ok s ↔ s.nanos = t.nanos + d * nanosPerSec := by
  unfold add checkedAdd
  by_cases h : t.nanos + d * nanosPerSec < endOfTime
  · rw [dif_pos h]
    simp only [Except.ok.injEq]
    exact ⟨fun he => by rw [← he], fun hs => ext' hs.symm⟩
  · rw [dif_neg h]
    have hs : s.nanos ≠ t.nanos + d * nanosPerSec := fun hs => h (hs ▸ s.upper)
    simp [hs]

theorem add_isOk_iff (t : SystemTime) (d : Duration) :
    (∃ s, t.add d = .ok s) ↔ t.nanos + d * nanosPerSec < endOfTime := by
  unfold add checkedAdd
  by_cases h : t.nanos + d * nanosPerSec < endOfTime
  · rw [dif_pos h]
    exact iff_of_true ⟨_, rfl⟩ h
  · rw [dif_neg h]
    exact iff_of_false (fun ⟨s, hs⟩ => by cases hs) h

theorem add_epoch_isOk_iff (n : Nat) : (∃ s, epoch.add n = .ok s) ↔ n < 2 ^ 63 := by
  have hzero : epoch.nanos = 0 := rfl
  rw [add_isOk_iff, hzero]
  unfold endOfTime nanosPerSec
  omega

theorem unixSecs_of_add_epoch {n : Nat} {s : SystemTime} (h : epoch.add n = .ok s) : s.unixSecs = n := by
  have hzero : epoch.nanos = 0 := rfl
  have hs := add_eq_ok_iff.1 h
  rw [hzero, nanosPerSec] at hs
  unfold unixSecs nanosPerSec
  omega

theorem add_epoch_unixSecs (t : SystemTime) : epoch.add t.unixSecs = .ok t.truncSecs := by
  have hzero : epoch.nanos + t.unixSecs * nanosPerSec = t.truncSecs.nanos := by
    simp only [epoch, truncSecs, Int.zero_add]
  exact add_eq_ok_iff.2 hzero.symm

theorem truncSecs_nanos {t : SystemTime} (h : 0 ≤ t.nanos) :
    t.truncSecs.nanos = t.nanos / nanosPerSec * nanosPerSec := by
  show ((t.nanos / nanosPerSec).toNat : Int) * nanosPerSec = _
  rw [Int.toNat_of_nonneg (Int.ediv_nonneg h (by decide))]

theorem truncSecs_le {t : SystemTime} (h : 0 ≤ t.nanos) : t.truncSecs.nanos ≤ t.nanos := by
  rw [truncSecs_nanos h]
  exact Int.ediv_mul_le _ (by decide)

end SystemTime
end Zaphyl
