import Zaphyl.ForwardStage
/-!
# UpstreamFailure — what a client is sent when the upstream fails

On HTTP/1 and HTTP/2 every failure of an upstream comes to `fail_to_proxy`, which has a status for it: 504 for a timeout
and 502 for any other.  The HTTP/3 listener waits for its upstream call up to the read timeout: a call that outlasts it
is answered with 504, and one that fails before ends the request's task with no head sent.
-/
namespace Zaphyl

/-- The kinds of errors that `fail_to_proxy` tells apart, and any further kind by its name. -/
inductive ErrorType
  | httpStatus (code : Nat)
  | connectTimedout
  | readTimedout
  | writeTimedout
  | tlsHandshakeTimedout
  | writeError
  | readError
  | connectionClosed
  | other (name : Str)
deriving DecidableEq

inductive ErrorSource
  | upstream
  | downstream
  | internal
  | unset
deriving DecidableEq

/-- The status of `fail_to_proxy`; zero for a client that is gone. -/
def failToProxyCode (etype : ErrorType) (source : ErrorSource) : Nat :=
  match etype with
  | .httpStatus code => code
  | .connectTimedout | .readTimedout | .writeTimedout | .tlsHandshakeTimedout => 504
  | _ =>
    match source with
    | .upstream => 502
    | .downstream =>
      match etype with
      | .writeError | .readError | .connectionClosed => 0
      | _ => 400
    | .internal | .unset => 500

def failToProxy (etype : ErrorType) (source : ErrorSource) : Option Nat :=
  let code := failToProxyCode etype source
  if code > 0 then some code else none

def ErrorType.timedOut : ErrorType → Bool
  | .connectTimedout => true
  | .readTimedout => true
  | .writeTimedout => true
  | .tlsHandshakeTimedout => true
  | _ => false

/-- What HTTP/1 sees of an upstream: its response head, or an error before it.  Only filters raise a status. -/
inductive UpstreamOutcome
  | responded (head : ResponseHead)
  | error (etype : ErrorType) (raised : ∀ code, etype ≠ .httpStatus code)

/-- The status HTTP/1 sends; the proxy marks an error of connecting or talking to the upstream as the upstream's. -/
def UpstreamOutcome.status : UpstreamOutcome → Option Nat
  | .responded head => some head.status.toNat
  | .error etype _ => failToProxy etype .upstream

/-- The upstream call of HTTP/3 by itself: when it comes to an end, if ever, and its head, or none for an error. -/
structure UpstreamCall where
  ended : Option (Nat × Option ResponseHead)

/-- A call under a timeout: one that ends at the last moment has ended. -/
inductive TimedCall
  | ended (head : Option ResponseHead)
  | elapsed
  | waiting

namespace UpstreamCall

variable (call : UpstreamCall) (timeout : Option Nat)

def timed : TimedCall :=
  match timeout, call.ended with
  | some limit, some (after, head) => if after ≤ limit then .ended head else .elapsed
  | some _, none => .elapsed
  | none, some (_, head) => .ended head
  | none, none => .waiting

/-- The status of the head that `proxy_request` sends: an error of the call ends it before any. -/
def status : Option Nat :=
  match call.timed timeout with
  | .ended (some head) => some head.status.toNat
  | .ended none => none
  | .elapsed => some 504
  | .waiting => none

/-- The read timeout elapses while the call goes on. -/
def Outlasts : Prop :=
  ∃ limit, timeout = some limit ∧ ∀ after head, call.ended = some (after, head) → limit < after

/-- The head comes within the read timeout, if there is one. -/
def Brings (head : ResponseHead) : Prop :=
  ∃ after, call.ended = some (after, some head) ∧ ∀ limit, timeout = some limit → after ≤ limit

/-- The call meets the upstream as HTTP/1 does: it ends with the same head or with an error, if it ends. -/
def Meets : UpstreamOutcome → Prop
  | .responded head => ∀ after found, call.ended = some (after, found) → found = some head
  | .error _ _ => ∀ after found, call.ended = some (after, found) → found = none

end UpstreamCall

/-! ## The two tables -/

/-- **504 for a timeout and 502 for any other failure of an upstream.** -/
theorem UpstreamOutcome.status_error (etype : ErrorType) (raised : ∀ code, etype ≠ .httpStatus code) :
    (UpstreamOutcome.error etype raised).status = some (if etype.timedOut then 504 else 502) := by
  cases etype with
  | httpStatus code => exact absurd rfl (raised code)
  | connectTimedout => rfl
  | readTimedout => rfl
  | writeTimedout => rfl
  | tlsHandshakeTimedout => rfl
  | writeError => rfl
  | readError => rfl
  | connectionClosed => rfl
  | other name => rfl

theorem UpstreamOutcome.exists_status (outcome : UpstreamOutcome) : ∃ status, outcome.status = some status := by
  cases outcome with
  | responded head => exact ⟨_, rfl⟩
  | error etype raised => exact ⟨_, status_error etype raised⟩

namespace UpstreamCall

variable {call : UpstreamCall} {timeout : Option Nat}

theorem timed_eq_elapsed_iff : call.timed timeout = .elapsed ↔ call.Outlasts timeout := by
  unfold timed Outlasts
  cases timeout with
  | none =>
    cases call.ended with
    | none => simp
    | some ended => simp
  | some limit =>
    cases call.ended with
    | none => simp
    | some ended =>
      obtain ⟨after, head⟩ := ended
      by_cases h : after ≤ limit
      · simp [h]
      · simp only [h, if_false, Option.some.injEq, exists_eq_left', Prod.mk.injEq, true_iff]
        rintro after' head' ⟨rfl, rfl⟩
        omega

theorem timed_eq_ended_iff {head : ResponseHead} :
    call.timed timeout = .ended (some head) ↔ call.Brings timeout head := by
  unfold timed Brings
  cases timeout with
  | none =>
    cases call.ended with
    | none => simp
    | some ended => simp [Prod.ext_iff]
  | some limit =>
    cases call.ended with
    | none => simp
    | some ended =>
      obtain ⟨after, found⟩ := ended
      by_cases h : after ≤ limit
      · simp [h]
      · simp [h]

/-- **HTTP/3 sends HTTP/1's status exactly when the head comes in time, or the call outlasts the read timeout and the
status is a timeout's.** -/
theorem status_eq_iff {outcome : UpstreamOutcome} (hmeets : call.Meets outcome) {sent : Nat}
    (hsent : outcome.status = some sent) :
    call.status timeout = some sent ↔
      (∃ head, outcome = .responded head ∧ call.Brings timeout head) ∨ call.Outlasts timeout ∧ sent = 504 := by
  constructor
  · intro h
    unfold status at h
    split at h
    · rename_i head hended
      obtain ⟨after, hafter, hintime⟩ := timed_eq_ended_iff.1 hended
      cases outcome with
      | responded head' =>
        obtain rfl := Option.some.inj (hmeets after _ hafter)
        exact Or.inl ⟨head, rfl, after, hafter, hintime⟩
      | error etype raised => cases hmeets after _ hafter
    · cases h
    · rename_i helapsed
      exact Or.inr ⟨timed_eq_elapsed_iff.1 helapsed, (Option.some.inj h).symm⟩
    · cases h
  · rintro (⟨head, rfl, hbrings⟩ | ⟨houtlasts, rfl⟩)
    · rw [status, timed_eq_ended_iff.2 hbrings]
      exact hsent
    · rw [status, timed_eq_elapsed_iff.2 houtlasts]

end UpstreamCall

/-! ## The requests that come to an upstream -/

/-- The listener's gates, its plugins and its cache let the request pass to `matched`, which has a target. -/
structure Server.Proxies (s : Server) (listener : Listener) (v : Visit) (matched : Route) : Prop where
  admitted : s.Admits listener v
  fits : s.tooLarge v.req = false
  route : s.proxy.upstreamRoute listener v.req = some matched
  noRoot : matched.staticDir = none
  noChain : ∀ plugins, s.plugins = some plugins → plugins.chain matched.id = none
  uncached : (s.consultCache listener v).answer = none
  target : matched.targets ≠ []

namespace Server

theorem storeThen_answer (s t : Server) (env : Env) (key : Str) (base : SystemTime) (ttl : Duration)
    (response : CachedResponse) (answer : Answer) :
    (t.storeThen env key base ttl response answer).1 = (s.storeThen env key base ttl response answer).1 := by
  unfold storeThen
  cases base.add ttl with
  | ok expiry => rfl
  | error panic => rfl

/-- What a revalidation is answered with depends on the body limit of the cache alone. -/
theorem revalidated_answer_congr {s t : Server} (h : t.proxy.maxBody = s.proxy.maxBody) (listener : Listener) (v : Visit)
    (l : CacheLookup) (hit : CachedResponse) (request : OriginRequest) :
    (t.revalidated listener v l hit request).answer = (s.revalidated listener v l hit request).answer := by
  unfold revalidated
  simp only [h]
  split
  · exact congrArg some (storeThen_answer s t ..)
  · rename_i fresh _
    cases storedTtl fresh with
    | none => rfl
    | some ttl => exact congrArg some (storeThen_answer s t ..)
  · rfl

theorem consultCache_limited (s : Server) (limiter : Option RateLimiter) (listener : Listener) (v : Visit) :
    (({ s with rateLimiter := limiter } : Server).consultCache listener v).answer =
      (s.consultCache listener v).answer := by
  unfold consultCache
  simp only
  split
  · split
    · rfl
    · rename_i cache l _ _ _ result cache' _
      cases result with
      | fresh hit => rfl
      | miss => rfl
      | stale hit =>
        simp only
        split
        · rename_i request hrequest
          split
          · rename_i request' hrequest'
            cases Option.some.inj (hrequest.symm.trans hrequest')
            apply revalidated_answer_congr
            rfl
          · rename_i hnone
            cases hrequest.symm.trans hnone
        · rename_i hnone
          split
          · rename_i request' hrequest'
            cases hnone.symm.trans hrequest'
          · rfl
  · rfl
end Server

namespace ZaphylProxy

variable {s : Server} {v : Visit} {matched : Route}

theorem consultCache_admitted (s : Server) (v : Visit) :
    ((admission s (some v.ip) v.nowMs v.req).2.consultCache .http1 v).answer = (s.consultCache .http1 v).answer := by
  obtain ⟨limiter, h⟩ := admission_limited s (some v.ip) v.nowMs v.req
  rw [h, s.consultCache_limited]

theorem tryRunPlugins_of_no_chain {s : Server} (hroute : s.proxy.upstreamRoute .http1 v.req = some matched)
    (h : ∀ plugins, s.plugins = some plugins → plugins.chain matched.id = none) : tryRunPlugins s v = (none, s) := by
  have hmatched : s.proxy.router.matchRoute (headerHost v.req) v.req.uri.path = some matched := hroute
  unfold tryRunPlugins
  rw [hmatched]
  cases hplugins : s.plugins with
  | none => rfl
  | some plugins => simp only [h plugins hplugins]

/-- **HTTP/1 forwards a proxied request.** -/
theorem handle_proxied (h : s.Proxies .http1 v matched) : ∃ request, (handle s v).answer = .forwarded request := by
  have hadmitted := (admission_eq_none_iff s v).2 h.admitted
  have hstatic := tryServeStatic_of_noRoot h.route h.noRoot
  obtain ⟨hplugins, hproxy⟩ := admission_keeps s (some v.ip) v.nowMs v.req
  have hran : tryRunPlugins (admission s (some v.ip) v.nowMs v.req).2 v =
      (none, (admission s (some v.ip) v.nowMs v.req).2) := by
    have hroute : (admission s (some v.ip) v.nowMs v.req).2.proxy.upstreamRoute .http1 v.req = some matched := by
      rw [hproxy, h.route]
    apply tryRunPlugins_of_no_chain hroute
    rw [hplugins]
    exact h.noChain
  have hfiltered := requestFilter_behind_root hadmitted hstatic
  simp only [hran] at hfiltered
  apply handle_forwards h.route h.target
  rw [hfiltered, consultCache_admitted, h.uncached]

end ZaphylProxy

namespace Http3

variable {s : Server} {v : Visit} {matched : Route}

/-- The target of a request that the cache lets pass. -/
def pickedTarget (s : Server) (v : Visit) : Option Target :=
  let consulted := (s.consultCache .http3 v).server
  (consulted.nextTarget (consulted.proxy.uriHost v.req.uri) v.req.uri.path).1

/-- **HTTP/3 forwards a proxied request, or fails where it cannot build it.** -/
theorem proxyRequest_proxied (h : s.Proxies .http3 v matched) : ∃ target, pickedTarget s v = some target ∧
    (proxyRequest s v).answer = ((upstreamRequest s v matched target).map Answer.forwarded).getD .failed := by
  obtain ⟨hdenied, hearly⟩ := h.admitted
  have hroot : NoRoot s v := noRoot_of_route h.route h.noRoot
  have hoff : ∀ cap, ¬ PluginPath s v cap := by
    rintro cap ⟨plugins, m, hplugins, hm, hchain, -⟩
    have hsame : some m = some matched := hm.symm.trans h.route
    rw [Option.some.inj hsame] at hchain
    exact hchain (h.noChain plugins hplugins)
  have hsettings := s.settings_consultCache .http3 v
  obtain ⟨matched', hmatched, hconfigured⟩ := Server.exists_upstreamRoute_of_settings hsettings.symm h.route
  have hroute : route (s.consultCache .http3 v).server v = some matched' := hmatched
  have htarget := (hasTarget_congr hsettings v).2 ⟨matched, h.route, h.target⟩
  obtain ⟨target, hpicked⟩ := Option.isSome_iff_exists.1 ((hasTarget_iff _ v).1 htarget)
  refine ⟨target, hpicked, ?_⟩
  rw [proxyRequest_of_passed hdenied hearly hroot (tryPlugins_of_off hoff), h.uncached]
  have hlarge : ((s.consultCache .http3 v).server.nextTarget
      ((s.consultCache .http3 v).server.proxy.uriHost v.req.uri) v.req.uri.path).2.tooLarge v.req = false := by
    rw [tooLarge_congr ((Server.settings_nextTarget ..).trans hsettings), h.fits]
  have hrequest : upstreamRequest ((s.consultCache .http3 v).server.nextTarget
      ((s.consultCache .http3 v).server.proxy.uriHost v.req.uri) v.req.uri.path).2 v matched' target =
        upstreamRequest s v matched target :=
    @Server.plainRequest_congr s _ ((Server.settings_nextTarget ..).trans hsettings) .http3 v _ _ hconfigured.symm target
  unfold forward
  simp only [hroute, hpicked, hlarge, hrequest, Bool.false_eq_true, if_false]
  cases upstreamRequest s v matched target with
  | none => rfl
  | some request => rfl

end Http3

/-! ## The two listeners -/

/-- The status of the head that the upstream makes HTTP/1 send. -/
def ZaphylProxy.upstreamStatus (s : Server) (v : Visit) (outcome : UpstreamOutcome) : Option Nat :=
  match (handle s v).answer with
  | .forwarded _ => outcome.status
  | _ => none

/-- The status of the head that the upstream call makes HTTP/3 send; a request that cannot be built ends before it. -/
def Http3.upstreamStatus (s : Server) (v : Visit) (readTimeout : Option Nat) (call : UpstreamCall) : Option Nat :=
  match (proxyRequest s v).answer with
  | .forwarded _ => call.status readTimeout
  | _ => none

/-- **HTTP/3 answers as HTTP/1 exactly when it can build its request, and the head comes within the read timeout, or the
call outlasts it and HTTP/1 has a timeout too.** -/
theorem upstream_answered_alike_iff {s : Server} {v : Visit} {matched matched' : Route}
    (hhttp1 : s.Proxies .http1 v matched) (hhttp3 : s.Proxies .http3 v matched') {call : UpstreamCall}
    {outcome : UpstreamOutcome} (hmeets : call.Meets outcome) (readTimeout : Option Nat) :
    (∀ etype raised, outcome = .error etype raised →
      ZaphylProxy.upstreamStatus s v outcome = some (if etype.timedOut then 504 else 502)) ∧
    ∃ target, Http3.pickedTarget s v = some target ∧
      ((∃ sent, Http3.upstreamStatus s v readTimeout call = some sent ∧
          ZaphylProxy.upstreamStatus s v outcome = some sent) ↔
        ¬ Http3.Unforwardable s v matched' target ∧
          ((∃ head, outcome = .responded head ∧ call.Brings readTimeout head) ∨
            call.Outlasts readTimeout ∧ outcome.status = some 504)) := by
  obtain ⟨request, hforwarded⟩ := ZaphylProxy.handle_proxied hhttp1
  have hstatus : ZaphylProxy.upstreamStatus s v outcome = outcome.status := by
    unfold ZaphylProxy.upstreamStatus
    rw [hforwarded]
  obtain ⟨sent, hsent⟩ := outcome.exists_status
  obtain ⟨target, hpicked, hanswer⟩ := Http3.proxyRequest_proxied hhttp3
  rw [hstatus]
  refine ⟨?_, target, hpicked, ?_⟩
  · rintro etype raised rfl
    exact UpstreamOutcome.status_error etype raised
  have hcall := @UpstreamCall.status_eq_iff call readTimeout outcome hmeets sent hsent
  rw [hsent]
  simp only [Option.some.injEq, exists_eq_right']
  unfold Http3.upstreamStatus
  rw [hanswer]
  cases hbuilt : Http3.upstreamRequest s v matched' target with
  | none =>
    refine iff_of_false (fun h => by cases h) ?_
    rintro ⟨hforwardable, -⟩
    rw [Http3.upstreamRequest_of_forwardable hforwardable] at hbuilt
    cases hbuilt
  | some request =>
    rw [and_iff_right (Http3.not_unforwardable_of_some hbuilt)]
    exact hcall

theorem page_proxied (listener : Listener) : ∃ matched,
    (runningServer oneUpstream.router).Proxies listener (visitOf (getPage "a.test".toList)) matched := by
  have hallowed : ¬ (runningServer oneUpstream.router).Denies (visitOf (getPage "a.test".toList)).ip := by
    rw [Server.denies_iff]
    decide
  cases listener with
  | http1 =>
    refine ⟨_, ⟨hallowed, ?_, rfl⟩, rfl, rfl, rfl, fun plugins h => (by cases h), rfl, by decide⟩
    rintro ⟨limiter, h, -⟩
    cases h
  | http3 => exact ⟨_, ⟨hallowed, by decide⟩, rfl, rfl, rfl, fun plugins h => (by cases h), rfl, by decide⟩

/-- An upstream that takes the request and never answers. -/
def silentOutcome : UpstreamOutcome := .error .readTimedout (by intro code h; cases h)

def silentCall : UpstreamCall := ⟨none⟩

theorem silent_upstream_answered_iff :
    let s := runningServer oneUpstream.router
    let v := visitOf (getPage "a.test".toList)
    silentCall.Meets silentOutcome ∧ ∃ matched, s.Proxies .http3 v matched ∧
      ∃ target, Http3.pickedTarget s v = some target ∧
        ((∃ sent, Http3.upstreamStatus s v (some 1000) silentCall = some sent ∧
            ZaphylProxy.upstreamStatus s v silentOutcome = some sent) ↔
          ¬ Http3.Unforwardable s v matched target ∧
            ((∃ head, silentOutcome = .responded head ∧ silentCall.Brings (some 1000) head) ∨
              silentCall.Outlasts (some 1000) ∧ silentOutcome.status = some 504)) := by
  intro s v
  have hmeets : silentCall.Meets silentOutcome := by
    intro after found h
    cases h
  obtain ⟨matched, hhttp1⟩ := page_proxied .http1
  obtain ⟨matched', hhttp3⟩ := page_proxied .http3
  exact ⟨hmeets, matched', hhttp3, (upstream_answered_alike_iff hhttp1 hhttp3 hmeets (some 1000)).2⟩

/-- An upstream that refuses connections. -/
def refusedOutcome : UpstreamOutcome := .error (.other "ConnectRefused".toList) (by intro code h; cases h)

def refusedCall : UpstreamCall := ⟨some (0, none)⟩

/-- **A refused connection is answered with 502 on HTTP/1 and with nothing on HTTP/3.** -/
theorem refused_connection_unanswered :
    let s := runningServer oneUpstream.router
    let v := visitOf (getPage "a.test".toList)
    (∀ listener, ∃ matched, s.Proxies listener v matched) ∧ refusedCall.Meets refusedOutcome ∧
      ZaphylProxy.upstreamStatus s v refusedOutcome = some 502 ∧
      Http3.upstreamStatus s v none refusedCall = none ∧ Http3.upstreamStatus s v (some 1000) refusedCall = none := by
  intro s v
  refine ⟨page_proxied, ?_, rfl, rfl, rfl⟩
  rintro after found h
  cases h
  rfl

end Zaphyl
