import Mathlib.Logic.Function.Basic
import Zaphyl.Http
import Zaphyl.Runs
/-!
# EarlyData — requests against the handshake of their connection

A connection that is accepted with 0-RTT hands out requests before its handshake is over.  A task of its own awaits the
handshake, whatever comes of it, and stores `handshake_done`; a request reads that flag and is refused when it is early
and unsafe.  Unsafe requests are forwarded only behind a successful handshake as long as none reads the flag that a
failed handshake left (`forwarded_after_handshake`).
-/
namespace Zaphyl

namespace Http3

def isSafeMethod (method : Str) : Bool :=
  ["GET".toList, "HEAD".toList, "OPTIONS".toList, "TRACE".toList].contains method

/-- The replay check: an early request with an unsafe method is refused. -/
def tooEarly (handshakeDone : Bool) (method : Str) : Bool := !handshakeDone && !isSafeMethod method

end Http3

/-! ## The connection -/

inductive HandshakeState
  | pending
  | succeeded
  | failed
deriving DecidableEq

inductive EarlyRequest
  | absent
  | received (method : Str)
  | refused
  | admitted (method : Str)
  | forwarded (method : Str)
deriving DecidableEq

/-- The method of a request that passed the replay check. -/
def EarlyRequest.passed : EarlyRequest → Option Str
  | .admitted method => some method
  | .forwarded method => some method
  | .absent => none
  | .received _ => none
  | .refused => none

structure Connection where
  handshake : HandshakeState
  handshakeDone : Bool
  requests : Nat → EarlyRequest

/-- What happens on a connection: a request's headers arrive, the handshake ends, the task that awaits it stores the
flag, a request reads the flag, and an admitted request is sent to its upstream. -/
inductive ConnectionEvent
  | receive (i : Nat) (method : Str)
  | finish (succeeds : Bool)
  | store
  | check (i : Nat)
  | forward (i : Nat)

namespace Connection

/-- `into_0rtt` gives a connection before its handshake. -/
def zeroRtt : Connection := ⟨.pending, false, fun _ => .absent⟩

/-- Without 0-RTT the connection is awaited, and is there only when its handshake succeeds. -/
def awaited : Connection := ⟨.succeeded, true, fun _ => .absent⟩

def setRequest (s : Connection) (i : Nat) (r : EarlyRequest) : Connection :=
  { s with requests := Function.update s.requests i r }

/-- One step.  A step that is not the next one of its request or of the handshake changes nothing; no headers arrive on
a connection whose handshake failed. -/
def step (s : Connection) : ConnectionEvent → Connection
  | .receive i method =>
    match s.requests i, s.handshake with
    | .absent, .pending => s.setRequest i (.received method)
    | .absent, .succeeded => s.setRequest i (.received method)
    | _, _ => s
  | .finish succeeds =>
    match s.handshake with
    | .pending => { s with handshake := if succeeds then .succeeded else .failed }
    | _ => s
  | .store =>
    -- the outcome of the awaited handshake is thrown away
    match s.handshake with
    | .pending => s
    | _ => { s with handshakeDone := true }
  | .check i =>
    match s.requests i with
    | .received method =>
      if Http3.tooEarly s.handshakeDone method then s.setRequest i .refused else s.setRequest i (.admitted method)
    | _ => s
  | .forward i =>
    match s.requests i with
    | .admitted method => s.setRequest i (.forwarded method)
    | _ => s

def Next (s : Connection) (e : ConnectionEvent) (t : Connection) : Prop := t = s.step e

/-- No unsafe request reads the flag that was stored after a failed handshake. -/
def ReadsNoFailure (s : Connection) : ConnectionEvent → Prop
  | .check i => ∀ method, s.requests i = .received method → Http3.isSafeMethod method = false →
      s.handshakeDone = true → s.handshake ≠ .failed
  | .receive _ _ => True
  | .finish _ => True
  | .store => True
  | .forward _ => True

/-! ## Unsafe requests wait for the handshake -/

/-- **The flag is stored behind an ended handshake, and unsafe requests pass behind a successful one.** -/
structure ReplaySafe (s : Connection) : Prop where
  ended : s.handshakeDone = true → s.handshake ≠ .pending
  passed : ∀ {i method}, (s.requests i).passed = some method → Http3.isSafeMethod method = false →
    s.handshake = .succeeded

theorem replaySafe_setRequest {s : Connection} (hs : s.ReplaySafe) {i : Nat} {r : EarlyRequest}
    (hr : ∀ method, r.passed = some method → Http3.isSafeMethod method = false → s.handshake = .succeeded) :
    (s.setRequest i r).ReplaySafe := by
  refine ⟨hs.ended, fun {k method} hpassed hmethod => ?_⟩
  by_cases hk : k = i
  · subst hk
    have hself : (s.setRequest k r).requests k = r := Function.update_self ..
    rw [hself] at hpassed
    exact hr method hpassed hmethod
  · have hother : (s.setRequest i r).requests k = s.requests k := Function.update_of_ne hk ..
    rw [hother] at hpassed
    exact hs.passed hpassed hmethod

theorem replaySafe_finish {s : Connection} (hs : s.ReplaySafe) (succeeds : Bool) :
    (s.step (.finish succeeds)).ReplaySafe := by
  simp only [step]
  split
  · rename_i hpending
    refine ⟨fun hdone => absurd hpending (hs.ended hdone), fun hpassed hmethod => ?_⟩
    -- nothing unsafe passed before the handshake ended
    have hsucceeded := hs.passed hpassed hmethod
    rw [hpending] at hsucceeded
    cases hsucceeded
  · exact hs

/-- A flag that lets an unsafe method pass and is not a failed handshake's is a successful one's. -/
theorem succeeded_of_not_tooEarly {s : Connection} (hs : s.ReplaySafe) {method : Str}
    (hpass : Http3.tooEarly s.handshakeDone method = false) (hmethod : Http3.isSafeMethod method = false)
    (hnot : s.handshakeDone = true → s.handshake ≠ .failed) : s.handshake = .succeeded := by
  have hdone : s.handshakeDone = true := by
    simpa [Http3.tooEarly, hmethod] using hpass
  cases hh : s.handshake with
  | pending => exact absurd hh (hs.ended hdone)
  | succeeded => rfl
  | failed => exact absurd hh (hnot hdone)

theorem replaySafe_check {s : Connection} (hs : s.ReplaySafe) {i : Nat} (hreads : s.ReadsNoFailure (.check i)) :
    (s.step (.check i)).ReplaySafe := by
  simp only [step]
  split
  · rename_i method hreceived
    split
    · exact replaySafe_setRequest hs (fun m hp _ => by cases hp)
    · rename_i hpass
      refine replaySafe_setRequest hs (fun m hp hmethod => ?_)
      cases hp
      exact succeeded_of_not_tooEarly hs (Bool.eq_false_iff.mpr hpass) hmethod (hreads method hreceived hmethod)
  · exact hs

theorem replaySafe_step {s : Connection} {e : ConnectionEvent} (hs : s.ReplaySafe) (hreads : s.ReadsNoFailure e) :
    (s.step e).ReplaySafe := by
  cases e with
  | receive i method =>
    have hreceived : (s.setRequest i (.received method)).ReplaySafe :=
      replaySafe_setRequest hs (fun m hp _ => by cases hp)
    simp only [step]
    split
    · exact hreceived
    · exact hreceived
    · exact hs
  | finish succeeds => exact replaySafe_finish hs succeeds
  | store =>
    simp only [step]
    split
    · exact hs
    · rename_i hended
      exact ⟨fun _ => hended, hs.passed⟩
  | check i => exact replaySafe_check hs hreads
  | forward i =>
    simp only [step]
    split
    · rename_i method hadmitted
      refine replaySafe_setRequest hs (fun m hp hmethod => ?_)
      cases hp
      exact hs.passed (by rw [hadmitted]; rfl) hmethod
    · exact hs

/-- **An unsafe request is forwarded only after its connection's handshake succeeded**, in every run in which no unsafe
request reads the flag of a failed one. -/
theorem forwarded_after_handshake {s₀ s : Connection} (h₀ : s₀ = zeroRtt ∨ s₀ = awaited)
    {events : List ConnectionEvent} (hrun : Runs.Run (Runs.Run.Where Next ReadsNoFailure) s₀ events s) (i : Nat)
    (method : Str) (hforwarded : s.requests i = .forwarded method) (hmethod : Http3.isSafeMethod method = false) :
    s.handshake = .succeeded := by
  have hstart : s₀.ReplaySafe := by
    rcases h₀ with rfl | rfl
    · exact ⟨(fun h => by cases h), fun hp _ => by cases hp⟩
    · exact ⟨(fun _ h => by cases h), fun hp _ => by cases hp⟩
  have hs : s.ReplaySafe :=
    hrun.invariant_where (fun _ _ t hc hg ht => by rw [ht]; exact replaySafe_step hc hg) hstart
  exact hs.passed (by rw [hforwarded]; rfl) hmethod

/-! ## A failed handshake -/

def post : Str := "POST".toList

def runConnection (events : List ConnectionEvent) : Connection := events.foldl step zeroRtt

/-- Headers arrive early, the handshake succeeds and is stored before they are checked. -/
def patientEvents : List ConnectionEvent := [.receive 0 post, .finish true, .store, .check 0, .forward 0]

theorem patient_post_forwarded :
    (runConnection patientEvents).requests 0 = .forwarded post ∧ (runConnection patientEvents).handshake = .succeeded :=
  have hrun : Runs.Run (Runs.Run.Where Next ReadsNoFailure) zeroRtt patientEvents (runConnection patientEvents) :=
    .cons ⟨rfl, trivial⟩ <| .cons ⟨rfl, trivial⟩ <| .cons ⟨rfl, trivial⟩ <| .cons ⟨rfl, fun _ _ _ _ h => by cases h⟩ <|
      .cons ⟨rfl, trivial⟩ <| .nil _
  ⟨rfl, forwarded_after_handshake (Or.inl rfl) hrun 0 post rfl (by decide)⟩

/-- The same with a handshake that fails. -/
def failingEvents : List ConnectionEvent := [.receive 0 post, .finish false, .store, .check 0, .forward 0]

/-- **After a failed handshake an early `POST` is forwarded.** -/
theorem failed_handshake_forwards_post :
    Runs.Run Next zeroRtt failingEvents (runConnection failingEvents) ∧
      (runConnection failingEvents).requests 0 = .forwarded post ∧ Http3.isSafeMethod post = false ∧
      (runConnection failingEvents).handshake = .failed :=
  ⟨.cons rfl <| .cons rfl <| .cons rfl <| .cons rfl <| .cons rfl <| .nil _, rfl, by decide, rfl⟩

end Connection
end Zaphyl
