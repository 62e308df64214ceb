import Mathlib.Algebra.GroupWithZero.Nat
import Zaphyl.RequestBody
/-!
# BodyFilter — the streamed request bodies of HTTP/1 and HTTP/2

The body filter adds up what passes it in the request's context and fails above the limit.  The context outlives the
attempts of a request: a retry passes a copy of what was read before through the filter again.  The filter fails
exactly when the bytes of all attempts exceed the limit (`attempts_spec`), which bounds what the upstreams are
handed and refuses bodies within the limit once they are retried.
-/
namespace Zaphyl

/-- `request_body_filter`: whether a chunk is let through, and the context's count after it. -/
def requestBodyFilter (maxBody : Option Nat) (bodySeen : Nat) (chunk : Option Bytes) : Bool × Nat :=
  match maxBody, chunk with
  | some max, some chunk => (!decide (bodySeen + chunk.length > max), bodySeen + chunk.length)
  | _, _ => (true, bodySeen)

/-- What comes of chunks on their way through the filter: those let through, up to an error. -/
structure Filtering where
  sent : List Bytes
  failed : Bool
  bodySeen : Nat
deriving DecidableEq

def filterChunks (maxBody : Option Nat) : Nat → List Bytes → Filtering
  | bodySeen, [] => ⟨[], false, bodySeen⟩
  | bodySeen, chunk :: chunks =>
    let filtered := requestBodyFilter maxBody bodySeen (some chunk)
    if filtered.1 then
      let rest := filterChunks maxBody filtered.2 chunks
      { rest with sent := chunk :: rest.sent }
    else ⟨[], true, filtered.2⟩

/-- What a request keeps from one attempt to the next: the count of its context, the retry buffer, and the chunks not
read yet. -/
structure BodySession where
  bodySeen : Nat
  buffered : Bytes
  unread : List Bytes

namespace BodySession

def start (chunks : List Bytes) : BodySession := ⟨0, [], chunks⟩

/-- What an attempt passes through the filter: the copy of what was read before, if any, then the chunks it reads. -/
def passes (s : BodySession) (reads : Nat) : List Bytes :=
  (if s.buffered = [] then [] else [s.buffered]) ++ s.unread.take reads

def attempt (maxBody : Option Nat) (s : BodySession) (reads : Nat) : Filtering × BodySession :=
  let filtering := filterChunks maxBody s.bodySeen (s.passes reads)
  (filtering, ⟨filtering.bodySeen, s.buffered ++ (s.unread.take reads).flatten, s.unread.drop reads⟩)

/-- The attempts of a request by the chunks each reads; the filter's error ends the request. -/
def attempts (maxBody : Option Nat) : BodySession → List Nat → List Filtering
  | _, [] => []
  | s, reads :: later =>
    let attempted := attempt maxBody s reads
    attempted.1 :: (if attempted.1.failed then [] else attempts maxBody attempted.2 later)

end BodySession

/-- The bytes of all attempts, with `before` bytes read before them: each passes what is read by its end. -/
def bytesThrough (before : Nat) (unread : List Bytes) : List Nat → Nat
  | [] => 0
  | reads :: later =>
    let read := before + (unread.take reads).flatten.length
    read + bytesThrough read (unread.drop reads) later

/-- The filter fails in some attempt. -/
def failsInSome (filterings : List Filtering) : Bool := filterings.any Filtering.failed

/-- The bytes the attempts hand to upstreams. -/
def handedBytes (filterings : List Filtering) : Nat := (filterings.map (fun f => f.sent.flatten.length)).sum

/-! ## The count -/

/-- **Chunks pass the filter as long as their bytes fit**: it fails exactly when they do not, what it lets through
fits, and what it lets through is all of them when it does not fail. -/
theorem filterChunks_spec (max : Nat) : ∀ (chunks : List Bytes) (bodySeen : Nat), bodySeen ≤ max →
    let f := filterChunks (some max) bodySeen chunks
    (f.failed = true ↔ max < bodySeen + chunks.flatten.length) ∧ bodySeen + f.sent.flatten.length ≤ max ∧
      (f.failed = false → f.sent = chunks ∧ f.bodySeen = bodySeen + chunks.flatten.length)
  | [], bodySeen, h => by
    simp [filterChunks]
    exact h
  | chunk :: chunks, bodySeen, h => by
    by_cases hfits : bodySeen + chunk.length ≤ max
    · have hpass : (requestBodyFilter (some max) bodySeen (some chunk)).1 = true := by
        simp [requestBodyFilter, hfits]
      obtain ⟨hfailed, hsent, hwhole⟩ := filterChunks_spec max chunks (bodySeen + chunk.length) hfits
      simp only [filterChunks, hpass, if_true, List.flatten_cons, List.length_append]
      refine ⟨?_, ?_, fun hok => ?_⟩
      · rw [← Nat.add_assoc]
        exact hfailed
      · rw [← Nat.add_assoc]
        exact hsent
      · obtain ⟨hall, hseen⟩ := hwhole hok
        refine ⟨congrArg (chunk :: ·) hall, ?_⟩
        rw [← Nat.add_assoc]
        exact hseen
    · have hpass : ¬ (requestBodyFilter (some max) bodySeen (some chunk)).1 = true := by
        simp [requestBodyFilter]
        omega
      simp only [filterChunks, if_neg hpass, List.flatten_cons, List.length_append, List.flatten_nil, List.length_nil,
        Nat.add_zero]
      refine ⟨iff_of_true trivial ?_, h, fun hok => ?_⟩
      · omega
      · cases hok

namespace BodySession

theorem length_passes (s : BodySession) (reads : Nat) :
    (s.passes reads).flatten.length = s.buffered.length + (s.unread.take reads).flatten.length := by
  unfold passes
  by_cases h : s.buffered = []
  · simp [h]
  · simp [h]

/-- **The filter fails in some attempt exactly when the bytes of all attempts exceed the limit**, and never are more
than the limit's handed on. -/
theorem attempts_spec (max : Nat) : ∀ (reads : List Nat) (s : BodySession), s.bodySeen ≤ max →
    (failsInSome (attempts (some max) s reads) = true ↔ max < s.bodySeen + bytesThrough s.buffered.length s.unread reads) ∧
      s.bodySeen + handedBytes (attempts (some max) s reads) ≤ max
  | [], s, h => by
    refine ⟨iff_of_false (by simp [attempts, failsInSome]) ?_, h⟩
    simp only [bytesThrough]
    omega
  | r :: reads, s, h => by
    obtain ⟨hfailed, hsent, hwhole⟩ := filterChunks_spec max (s.passes r) s.bodySeen h
    have hlength := s.length_passes r
    have hhead : attempts (some max) s (r :: reads) = (attempt (some max) s r).1 ::
        (if (attempt (some max) s r).1.failed then [] else attempts (some max) (attempt (some max) s r).2 reads) := rfl
    have hnext : (attempt (some max) s r).2.buffered.length = (s.passes r).flatten.length := by
      rw [hlength]
      exact List.length_append
    rw [hhead, bytesThrough, ← hlength]
    cases hf : (attempt (some max) s r).1.failed with
    | true =>
      have hover := hfailed.1 hf
      refine ⟨iff_of_true (by simp [failsInSome, hf]) (by omega), ?_⟩
      simp only [if_true, handedBytes, List.map_cons, List.map_nil, List.sum_cons, List.sum_nil, Nat.add_zero]
      exact hsent
    | false =>
      obtain ⟨hall, hseen⟩ := hwhole hf
      have hseen' : (attempt (some max) s r).2.bodySeen = s.bodySeen + (s.passes r).flatten.length := hseen
      have hall' : (attempt (some max) s r).1.sent = s.passes r := hall
      have hfits : (attempt (some max) s r).2.bodySeen ≤ max := by
        rw [hseen', ← hall]
        exact hsent
      obtain ⟨ihfailed, ihhanded⟩ := attempts_spec max reads (attempt (some max) s r).2 hfits
      rw [hseen', hnext] at ihfailed
      rw [hseen'] at ihhanded
      simp only [Bool.false_eq_true, if_false, failsInSome, handedBytes, List.any_cons, hf, Bool.false_or, List.map_cons,
        List.sum_cons, hall']
      rw [← Nat.add_assoc, ← Nat.add_assoc]
      exact ⟨ihfailed, ihhanded⟩

end BodySession

/-- **The filter counts a request body once exactly when its attempts pass no more than the limit of a body within it**,
and more than the limit of one above it. -/
theorem counted_once_iff (max : Nat) (chunks : List Bytes) (reads : List Nat) :
    (failsInSome (BodySession.attempts (some max) (BodySession.start chunks) reads) = true ↔
        max < chunks.flatten.length) ↔
      (chunks.flatten.length ≤ max ∧ bytesThrough 0 chunks reads ≤ max ∨
        max < chunks.flatten.length ∧ max < bytesThrough 0 chunks reads) := by
  have hfails := (BodySession.attempts_spec max reads (BodySession.start chunks) (Nat.zero_le _)).1
  have hstart : (BodySession.start chunks).bodySeen = 0 ∧ (BodySession.start chunks).buffered.length = 0 ∧
      (BodySession.start chunks).unread = chunks := ⟨rfl, rfl, rfl⟩
  rw [hfails, hstart.1, hstart.2.1, hstart.2.2, Nat.zero_add]
  omega

def twoBytes : List Bytes := [[1, 2]]

/-- **A body of two bytes under a limit of three is refused on its first retry.** -/
theorem retried_body_refused :
    twoBytes.flatten.length ≤ 3 ∧ failsInSome (BodySession.attempts (some 3) (BodySession.start twoBytes) [1]) = false ∧
      failsInSome (BodySession.attempts (some 3) (BodySession.start twoBytes) [1, 0]) = true ∧
      ¬ (failsInSome (BodySession.attempts (some 3) (BodySession.start twoBytes) [1, 0]) = true ↔
        3 < twoBytes.flatten.length) := by
  decide

end Zaphyl
