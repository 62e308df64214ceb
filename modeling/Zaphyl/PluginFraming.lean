import Zaphyl.BodyBound
import Zaphyl.ForwardStage
/-!
# PluginFraming — declared and undeclared bodies on a plugin route

A declared length above the plugins' cap makes either listener pass the request on without its chain, since the body
could not be buffered.  An undeclared body is buffered until it exceeds the cap, and refused then.  So what becomes of
a body is decided by the cap, the declared length and the body's own, and on both listeners alike
(`framing_decides_outcome`).
-/
namespace Zaphyl

/-- What becomes of a body on a plugin route. -/
inductive BodyOutcome
  | chainRun
  | refused
  | passedOn
deriving DecidableEq

/-- Behind the chain are the cache and the upstream, whatever they come to. -/
def Answer.bodyOutcome : Answer → Option BodyOutcome
  | .plugins _ _ _ _ => some .chainRun
  | .refused status => if status = 413 then some .refused else none
  | .cached _ _ => some .passedOn
  | .forwarded _ => some .passedOn
  | .failed => some .passedOn
  | .panicked _ => some .passedOn
  | .file _ => none
  | .noTarget => none

def framedOutcome (cap : Nat) (declared : Option Nat) (length : Nat) : BodyOutcome :=
  if declared.any (fun len => decide (cap < len)) then .passedOn
  else if length ≤ cap then .chainRun
  else .refused

/-- The gates and the body limit let the request pass to `matched`, which has a plugin chain and a target, and its body
ends. -/
structure Server.ReachesChain (s : Server) (listener : Listener) (v : Visit) (plugins : Plugins) (matched : Route) :
    Prop where
  admitted : s.Admits listener v
  fits : s.tooLarge v.req = false
  route : s.proxy.upstreamRoute listener v.req = some matched
  noRoot : matched.staticDir = none
  configured : s.plugins = some plugins
  chain : plugins.chain matched.id ≠ none
  target : matched.targets ≠ []
  ends : v.body.endsCleanly = true

/-- Truly declared, a body has the outcome of the same one undeclared exactly when the cap admits it. -/
theorem framedOutcome_declared_eq_iff (cap length : Nat) :
    framedOutcome cap (some length) length = framedOutcome cap none length ↔ length ≤ cap := by
  unfold framedOutcome
  by_cases h : length ≤ cap
  · simp [h]
  · have hlarge : cap < length := Nat.lt_of_not_le h
    simp [h, hlarge]

theorem bodyOutcome_of_fromCache {answer : Answer} (h : answer.FromCache) : answer.bodyOutcome = some .passedOn := by
  rcases h with ⟨hit, ifNoneMatch, rfl⟩ | ⟨panic, rfl⟩
  · rfl
  · rfl

theorem bodyOutcome_of_hands {answer : Answer} {request : PluginRequest} (h : answer.Hands request) :
    answer.bodyOutcome = some .chainRun := by
  obtain ⟨chain, host, target, rfl⟩ := h
  rfl

/-- A body that the cap admits runs the chain, on either listener. -/
theorem Server.ReachesChain.bodyOutcome_of_fits {s : Server} {listener : Listener} {v : Visit} {plugins : Plugins}
    {matched : Route} (h : s.ReachesChain listener v plugins matched)
    (hdeclared : (declaredLength v.req).any (fun len => decide (plugins.maxBody < len)) = false)
    (hfits : v.body.body.length ≤ plugins.maxBody) : (s.handle listener v).answer.bodyOutcome = some .chainRun := by
  have hruns : s.RunsPlugins listener v matched :=
    ⟨h.admitted, h.route, h.noRoot, plugins, h.configured, h.chain, h.target,
      (declared_fits_iff v.req plugins.maxBody).1 hdeclared, hfits, fun _ => h.ends⟩
  exact bodyOutcome_of_hands ((handle_hands_iff s listener v _).2 ⟨matched, hruns, rfl⟩)

namespace ZaphylProxy

variable {s : Server} {v : Visit} {plugins : Plugins} {matched : Route}

/-- A declared length above the cap passes the plugin stage. -/
theorem tryRunPlugins_of_above (hplugins : s.plugins = some plugins)
    (h : (declaredLength v.req).any (fun len => decide (plugins.maxBody < len)) = true) :
    (tryRunPlugins s v).1 = none := by
  unfold tryRunPlugins
  rw [hplugins]
  split
  · rename_i plugins' matched hsome hmatched
    cases hsome
    cases plugins.chain matched.id with
    | none => rfl
    | some chain =>
      cases hpicked : (s.nextTarget (headerHost v.req) v.req.uri.path).1 with
      | none => simp only [hpicked]
      | some target => simp only [hpicked, h, if_true]
  · rfl

/-- A body above the cap is refused, unless its length was declared above it. -/
theorem tryRunPlugins_of_over (hplugins : s.plugins = some plugins)
    (hroute : s.proxy.upstreamRoute .http1 v.req = some matched) (hchain : plugins.chain matched.id ≠ none)
    (htargets : matched.targets ≠ [])
    (h : (declaredLength v.req).any (fun len => decide (plugins.maxBody < len)) = false)
    (hover : plugins.maxBody < v.body.body.length) : (tryRunPlugins s v).1 = some (.refused 413) := by
  obtain ⟨chain, hchain⟩ := Option.ne_none_iff_exists'.1 hchain
  have hmatched : s.proxy.router.matchRoute (headerHost v.req) v.req.uri.path = some matched := hroute
  obtain ⟨target, htarget⟩ := Option.isSome_iff_exists.1 ((nextTarget_isSome_iff hmatched).2 htargets)
  have hbuffer := bufferBody_empty_eq_none_iff.2 hover
  unfold tryRunPlugins
  rw [hplugins, hmatched]
  simp only [hchain, htarget, h, Bool.false_eq_true, if_false, hbuffer]

/-- **What becomes of a body on HTTP/1 and HTTP/2.** -/
theorem handle_framed (h : s.ReachesChain .http1 v plugins matched) :
    (handle s v).answer.bodyOutcome =
      some (framedOutcome plugins.maxBody (declaredLength v.req) v.body.body.length) := by
  have hadmitted := (admission_eq_none_iff s v).2 h.admitted
  have hstatic := tryServeStatic_of_noRoot h.route h.noRoot
  have hfiltered := requestFilter_behind_root hadmitted hstatic
  obtain ⟨hplugins, hproxy⟩ := admission_keeps s (some v.ip) v.nowMs v.req
  rw [h.configured] at hplugins
  cases habove : (declaredLength v.req).any (fun len => decide (plugins.maxBody < len)) with
  | true =>
    rw [framedOutcome, if_pos habove]
    -- passed by the chain, the request is answered from the cache or goes on to its upstream
    have hpassed := tryRunPlugins_of_above hplugins habove
    simp only [hpassed] at hfiltered
    cases hcached : (requestFilter s v).answer with
    | none =>
      obtain ⟨request, hrequest⟩ := handle_forwards h.route h.target hcached
      rw [hrequest]
      rfl
    | some answer =>
      have hanswer : (handle s v).answer = answer := by
        unfold handle
        simp only [hcached]
      rw [hanswer]
      rw [hfiltered] at hcached
      exact bodyOutcome_of_fromCache (Server.consultCache_fromCache _ _ _ hcached)
  | false =>
    rw [framedOutcome, if_neg (Bool.eq_false_iff.1 habove)]
    by_cases hfits : v.body.body.length ≤ plugins.maxBody
    · rw [if_pos hfits]
      exact h.bodyOutcome_of_fits habove hfits
    · rw [if_neg hfits]
      have hroute : (admission s (some v.ip) v.nowMs v.req).2.proxy.upstreamRoute .http1 v.req = some matched := by
        rw [hproxy, h.route]
      have hrefused := tryRunPlugins_of_over hplugins hroute h.chain h.target habove (Nat.lt_of_not_le hfits)
      simp only [hrefused] at hfiltered
      unfold handle
      simp only [hfiltered]
      rfl

end ZaphylProxy

namespace Http3

variable {s : Server} {v : Visit} {plugins : Plugins} {matched : Route}

/-- A body above the cap is refused, unless its length was declared above it. -/
theorem tryPlugins_of_over (hplugins : s.plugins = some plugins)
    (hroute : s.proxy.upstreamRoute .http3 v.req = some matched) (hchain : plugins.chain matched.id ≠ none)
    (htargets : matched.targets ≠ [])
    (h : (declaredLength v.req).any (fun len => decide (plugins.maxBody < len)) = false)
    (hover : plugins.maxBody < v.body.body.length) : (tryPlugins s v).1 = some (.refused 413) := by
  obtain ⟨chain, hchain⟩ := Option.ne_none_iff_exists'.1 hchain
  have hmatched : route s v = some matched := hroute
  obtain ⟨target, htarget⟩ := Option.isSome_iff_exists.1 ((nextTarget_isSome_iff hmatched).2 htargets)
  have hbuffer := bufferBody_empty_eq_none_iff.2 hover
  unfold tryPlugins
  rw [hplugins, hmatched]
  simp only [hchain, htarget, h, Bool.false_eq_true, if_false, hbuffer]

/-- The last stage passes on a request within the body limit whose route has a target. -/
theorem forward_passedOn {contacts : List OriginRequest} {storeKey : Option Str} (htarget : HasTarget s v)
    (hfits : s.tooLarge v.req = false) : (forward s v contacts storeKey).answer.bodyOutcome = some .passedOn := by
  have hlarge : (s.nextTarget (s.proxy.uriHost v.req.uri) v.req.uri.path).2.tooLarge v.req = false := hfits
  obtain ⟨target, hpicked⟩ := Option.isSome_iff_exists.1 ((hasTarget_iff s v).1 htarget)
  obtain ⟨matched, hmatched, -⟩ := htarget
  unfold forward
  simp only [hmatched, hpicked, hlarge, Bool.false_eq_true, if_false]
  cases upstreamRequest (s.nextTarget (s.proxy.uriHost v.req.uri) v.req.uri.path).2 v matched target with
  | none => rfl
  | some request => rfl

/-- **What becomes of a body on HTTP/3.** -/
theorem proxyRequest_framed (h : s.ReachesChain .http3 v plugins matched) :
    (proxyRequest s v).answer.bodyOutcome =
      some (framedOutcome plugins.maxBody (declaredLength v.req) v.body.body.length) := by
  obtain ⟨hdenied, hearly⟩ := h.admitted
  have hroot : NoRoot s v := noRoot_of_route h.route h.noRoot
  cases habove : (declaredLength v.req).any (fun len => decide (plugins.maxBody < len)) with
  | true =>
    rw [framedOutcome, if_pos habove]
    have hoff : ∀ cap, ¬ PluginPath s v cap := by
      rintro cap ⟨plugins', -, hplugins', -, -, rfl, hle⟩
      cases h.configured.symm.trans hplugins'
      rw [(declared_fits_iff v.req plugins.maxBody).2 hle] at habove
      cases habove
    have hsame := s.settings_consultCache .http3 v
    rw [proxyRequest_of_passed hdenied hearly hroot (tryPlugins_of_off hoff)]
    cases hcached : (s.consultCache .http3 v).answer with
    | some answer => exact bodyOutcome_of_fromCache (Server.consultCache_fromCache _ _ _ hcached)
    | none =>
      apply forward_passedOn
      · exact (hasTarget_congr hsame v).2 ⟨matched, h.route, h.target⟩
      · rw [tooLarge_congr hsame, h.fits]
  | false =>
    rw [framedOutcome, if_neg (Bool.eq_false_iff.1 habove)]
    by_cases hfits : v.body.body.length ≤ plugins.maxBody
    · rw [if_pos hfits]
      exact h.bodyOutcome_of_fits habove hfits
    · rw [if_neg hfits]
      have hrefused := tryPlugins_of_over h.configured h.route h.chain h.target habove (Nat.lt_of_not_le hfits)
      rw [proxyRequest_of_plugins hdenied hearly hroot hrefused]
      rfl

end Http3

/-- **The cap, the declared length and the body's own decide what becomes of a body on a plugin route**, on either
listener: declared above the cap it passes by the chain, and above the cap otherwise it is refused. -/
theorem framing_decides_outcome {s : Server} {listener : Listener} {v : Visit} {plugins : Plugins} {matched : Route}
    (h : s.ReachesChain listener v plugins matched) :
    (s.handle listener v).answer.bodyOutcome =
      some (framedOutcome plugins.maxBody (declaredLength v.req) v.body.body.length) := by
  cases listener with
  | http1 => exact ZaphylProxy.handle_framed h
  | http3 => exact Http3.proxyRequest_framed h

/-- A chain with a cap of one byte on the only route. -/
def cappedServer : Server :=
  { runningServer oneUpstream.router with plugins := some ⟨[["auth.wasm".toList]], 1⟩ }

/-- The form of two bytes with its length declared. -/
def declaredForm : Visit :=
  { formVisit with
    req := { formVisit.req with
      headers := formVisit.req.headers.append HeaderName.contentLength ⟨[50], by decide⟩ } }

theorem capped_form_outcome :
    (∃ matched, cappedServer.ReachesChain .http3 formVisit ⟨[["auth.wasm".toList]], 1⟩ matched) ∧
      (cappedServer.handle .http3 formVisit).answer.bodyOutcome =
        some (framedOutcome 1 (declaredLength formVisit.req) formVisit.body.body.length) := by
  have hallowed : ¬ cappedServer.Denies formVisit.ip := by
    rw [Server.denies_iff]
    decide
  have hreaches : cappedServer.ReachesChain .http3 formVisit ⟨[["auth.wasm".toList]], 1⟩ _ :=
    ⟨⟨hallowed, by decide⟩, rfl, rfl, rfl, rfl, by decide, by decide, rfl⟩
  exact ⟨⟨_, hreaches⟩, framing_decides_outcome hreaches⟩

/-- **A form that is refused undeclared is forwarded without the chain when its length is declared**, on either
listener. -/
theorem declared_form_passes_chain :
    formVisit.body = declaredForm.body ∧ declaredLength declaredForm.req = some declaredForm.body.body.length ∧
      ∀ listener, (cappedServer.handle listener formVisit).answer = .refused 413 ∧
        (∃ request, (cappedServer.handle listener declaredForm).answer = .forwarded request) ∧
        (cappedServer.handle listener formVisit).answer.bodyOutcome ≠
          (cappedServer.handle listener declaredForm).answer.bodyOutcome := by
  refine ⟨rfl, rfl, fun listener => ?_⟩
  cases listener with
  | http1 => exact ⟨rfl, ⟨_, rfl⟩, fun h => by cases h⟩
  | http3 => exact ⟨rfl, ⟨_, rfl⟩, fun h => by cases h⟩

end Zaphyl
