import Zaphyl.AdmissionParity
/-!
# PluginStage — the requests that come to a plugin chain

A plugin chain is handed a request that passed the gates, whose route has no document root, a chain and a target, and
whose body fits the chain's cap (`handle_plugins_iff`).  What it is handed is the client's request with the route's
headers behind the client's own.
-/
namespace Zaphyl

/-- The gates before the document root let the request pass. -/
def Server.Admits (s : Server) (listener : Listener) (v : Visit) : Prop :=
  match listener with
  | .http1 => ¬ s.Denies v.ip ∧ ¬ ZaphylProxy.OverLimit s v ∧ s.tooLarge v.req = false
  | .http3 => ¬ s.Denies v.ip ∧ ¬ Http3.tooEarly v.handshakeDone v.req.method = true

/-- The route `matched` has a plugin chain and a target, and the chain's cap admits the declared length and the body;
on HTTP/1 the body must also end. -/
def Server.Buffers (s : Server) (listener : Listener) (v : Visit) (matched : Route) : Prop :=
  ∃ plugins, s.plugins = some plugins ∧ plugins.chain matched.id ≠ none ∧ matched.targets ≠ [] ∧
    (∀ len, declaredLength v.req = some len → len ≤ plugins.maxBody) ∧ v.body.body.length ≤ plugins.maxBody ∧
    (listener = .http1 → v.body.endsCleanly = true)

/-- The request comes to the plugin chain of its route. -/
def Server.RunsPlugins (s : Server) (listener : Listener) (v : Visit) (matched : Route) : Prop :=
  s.Admits listener v ∧ s.proxy.upstreamRoute listener v.req = some matched ∧ matched.staticDir = none ∧
    s.Buffers listener v matched

/-- The headers a listener adds behind the route's. -/
def addedHeaders (listener : Listener) (v : Visit) : List (Str × Str) :=
  match listener with
  | .http1 => []
  | .http3 => if v.handshakeDone then [] else [("early-data".toList, "1".toList)]

/-- A plugin chain is handed this request. -/
def Answer.Hands (answer : Answer) (request : PluginRequest) : Prop :=
  ∃ chain host target, answer = .plugins chain request host target

/-! ## The stage -/

theorem nextTarget_isSome_iff {s : Server} {host : Option Str} {path : Str} {matched : Route}
    (h : s.proxy.router.matchRoute host path = some matched) :
    (s.nextTarget host path).1.isSome = true ↔ matched.targets ≠ [] := by
  have hpicked : (s.nextTarget host path).1 = matched.nextTarget.1 := by
    simp [Server.nextTarget, Router.nextTarget, h]
  rw [hpicked]
  exact matched.nextTarget_isSome

theorem declared_fits_iff (req : Request) (cap : Nat) :
    (declaredLength req).any (fun len => decide (cap < len)) = false ↔ ∀ len, declaredLength req = some len → len ≤ cap := by
  cases declaredLength req <;> simp

theorem hands_plugins_iff {chain : List Str} {request handed : PluginRequest} {host : Str} {target : Target} :
    (Answer.plugins chain request host target).Hands handed ↔ request = handed := by
  constructor
  · rintro ⟨chain', host', target', h⟩
    cases h
    rfl
  · exact fun h => ⟨chain, host, target, by rw [h]⟩

theorem not_hands_of_fromCache {answer : Answer} {request : PluginRequest} (h : answer.FromCache) :
    ¬ answer.Hands request := by
  rintro ⟨chain, host, target, rfl⟩
  rcases h with ⟨hit, ifNoneMatch, h⟩ | ⟨panic, h⟩
  · cases h
  · cases h

namespace ZaphylProxy

/-- **What the plugin stage of HTTP/1 answers**: the route has a chain and a target and the declared length is within
the cap; the chain runs unless the body exceeds the cap or breaks off. -/
theorem tryRunPlugins_answer {s : Server} {v : Visit} {answer : Answer} (h : (tryRunPlugins s v).1 = some answer) :
    ∃ plugins matched chain target, s.plugins = some plugins ∧ s.proxy.upstreamRoute .http1 v.req = some matched ∧
      plugins.chain matched.id = some chain ∧ (s.nextTarget (headerHost v.req) v.req.uri.path).1 = some target ∧
      (∀ len, declaredLength v.req = some len → len ≤ plugins.maxBody) ∧
      (answer = .refused 413 ∧ plugins.maxBody < v.body.body.length ∨
        answer = .failed ∧ v.body.endsCleanly = false ∨
        answer = .plugins chain (pluginRequest v matched [] v.body.body)
            ((v.req.headers.getStr HeaderName.host).getD []) target ∧
          v.body.body.length ≤ plugins.maxBody ∧ v.body.endsCleanly = true) := by
  unfold tryRunPlugins at h
  split at h
  · rename_i plugins matched hplugins hmatched
    split at h
    · cases h
    · rename_i chain hchain
      simp only at h
      split at h
      · cases h
      · rename_i target htarget
        split at h
        · cases h
        · rename_i hdeclared
          have hle := (declared_fits_iff v.req plugins.maxBody).1 (Bool.eq_false_iff.2 hdeclared)
          refine ⟨plugins, matched, chain, target, hplugins, hmatched, hchain, htarget, hle, ?_⟩
          split at h
          · rename_i hover
            exact Or.inl ⟨(Option.some.inj h).symm, bufferBody_empty_eq_none_iff.1 hover⟩
          · rename_i buffered hbuffer
            obtain ⟨hfits, rfl⟩ := bufferBody_empty_eq_some_iff.1 hbuffer
            split at h
            · rename_i hclean
              exact Or.inr (Or.inr ⟨(Option.some.inj h).symm, hfits, hclean⟩)
            · rename_i hbroken
              exact Or.inr (Or.inl ⟨(Option.some.inj h).symm, Bool.eq_false_iff.2 hbroken⟩)
  · cases h

/-- **The plugin stage of HTTP/1 hands on the whole request**, exactly when it buffers its body. -/
theorem tryRunPlugins_hands_iff (s : Server) (v : Visit) (request : PluginRequest) :
    (∃ answer, (tryRunPlugins s v).1 = some answer ∧ answer.Hands request) ↔
      ∃ matched, s.proxy.upstreamRoute .http1 v.req = some matched ∧ s.Buffers .http1 v matched ∧
        request = pluginRequest v matched (addedHeaders .http1 v) v.body.body := by
  constructor
  · rintro ⟨answer, h, chain', host', target', rfl⟩
    obtain ⟨plugins, matched, chain, target, hplugins, hmatched, hchain, htarget, hle, hcase⟩ := tryRunPlugins_answer h
    rcases hcase with ⟨hanswer, -⟩ | ⟨hanswer, -⟩ | ⟨hanswer, hfits, hclean⟩
    · cases hanswer
    · cases hanswer
    · have htargets : matched.targets ≠ [] := (nextTarget_isSome_iff hmatched).1 (by rw [htarget]; rfl)
      cases hanswer
      exact ⟨matched, hmatched, ⟨plugins, hplugins, by simp [hchain], htargets, hle, hfits, fun _ => hclean⟩, rfl⟩
  · rintro ⟨matched, hmatched, ⟨plugins, hplugins, hchain, htargets, hle, hfits, hclean⟩, rfl⟩
    obtain ⟨chain, hchain⟩ := Option.ne_none_iff_exists'.1 hchain
    have hroute : s.proxy.router.matchRoute (headerHost v.req) v.req.uri.path = some matched := hmatched
    obtain ⟨target, htarget⟩ := Option.isSome_iff_exists.1 ((nextTarget_isSome_iff hroute).2 htargets)
    have hdeclared := (declared_fits_iff v.req plugins.maxBody).2 hle
    have hbuffer := bufferBody_empty_eq_some_iff.2 ⟨hfits, rfl⟩
    have hran : (tryRunPlugins s v).1 = some (.plugins chain (pluginRequest v matched [] v.body.body)
        ((v.req.headers.getStr HeaderName.host).getD []) target) := by
      simp [tryRunPlugins, hplugins, hroute, hchain, htarget, hdeclared, hbuffer, hclean rfl]
    exact ⟨_, hran, hands_plugins_iff.2 rfl⟩

theorem admission_keeps (s : Server) (ip : Option IpAddr) (nowMs : Nat) (req : Request) :
    (admission s ip nowMs req).2.plugins = s.plugins ∧ (admission s ip nowMs req).2.proxy = s.proxy := by
  obtain ⟨limiter, h⟩ := admission_limited s ip nowMs req
  rw [h]
  exact ⟨rfl, rfl⟩

theorem tryServeStatic_eq_none_iff (s : Server) (req : Request) :
    tryServeStatic s req = none ↔
      ∀ matched, s.proxy.upstreamRoute .http1 req = some matched → matched.staticDir = none := by
  unfold tryServeStatic Server.serveStatic
  show _ ↔ ∀ matched, s.proxy.router.matchRoute (headerHost req) req.uri.path = some matched → _
  cases s.proxy.router.matchRoute (headerHost req) req.uri.path with
  | none => simp
  | some matched => simp

theorem tryServeStatic_of_noRoot {s : Server} {req : Request} {matched : Route}
    (hroute : s.proxy.upstreamRoute .http1 req = some matched) (hroot : matched.staticDir = none) :
    tryServeStatic s req = none := by
  apply (tryServeStatic_eq_none_iff s req).2
  intro m hm
  rw [← Option.some.inj (hroute.symm.trans hm)]
  exact hroot

theorem handle_hands_iff (s : Server) (v : Visit) (request : PluginRequest) :
    (handle s v).answer.Hands request ↔
      (admission s (some v.ip) v.nowMs v.req).1 = none ∧ tryServeStatic s v.req = none ∧
        ∃ answer, (tryRunPlugins s v).1 = some answer ∧ answer.Hands request := by
  obtain ⟨hplugins, hproxy⟩ := admission_keeps s (some v.ip) v.nowMs v.req
  have hran : (∃ answer, (tryRunPlugins (admission s (some v.ip) v.nowMs v.req).2 v).1 = some answer ∧
      answer.Hands request) ↔ ∃ answer, (tryRunPlugins s v).1 = some answer ∧ answer.Hands request := by
    rw [tryRunPlugins_hands_iff, tryRunPlugins_hands_iff]
    unfold Server.Buffers
    rw [hplugins, hproxy]
  cases hadmitted : (admission s (some v.ip) v.nowMs v.req).1 with
  | some status =>
    rw [(handle_of_refused hadmitted).1]
    simp [Answer.Hands]
  | none =>
    cases hstatic : tryServeStatic s v.req with
    | some contents =>
      rw [(handle_of_static hadmitted hstatic).1]
      simp [Answer.Hands]
    | none =>
      rw [← hran, and_iff_right rfl, and_iff_right rfl]
      have hfiltered := requestFilter_behind_root hadmitted hstatic
      cases hanswer : (tryRunPlugins (admission s (some v.ip) v.nowMs v.req).2 v).1 with
      | some answer =>
        simp only [hanswer] at hfiltered
        simp only [handle, hfiltered, Option.some.injEq, exists_eq_left']
      | none =>
        simp only [hanswer] at hfiltered
        refine iff_of_false ?_ (by simp)
        unfold handle
        rw [hfiltered]
        simp only
        split
        · rename_i answer hcached
          exact not_hands_of_fromCache (Server.consultCache_fromCache _ _ _ hcached)
        · split
          · rintro ⟨_, _, _, h⟩
            cases h
          · rintro ⟨_, _, _, h⟩
            cases h

end ZaphylProxy

namespace Http3

/-- **What the plugin stage of HTTP/3 answers**: the route has a chain and the declared length is within the cap; with a
target, the chain runs unless the body exceeds the cap. -/
theorem tryPlugins_answer {s : Server} {v : Visit} {answer : Answer} (h : (tryPlugins s v).1 = some answer) :
    ∃ plugins matched chain, s.plugins = some plugins ∧ s.proxy.upstreamRoute .http3 v.req = some matched ∧
      plugins.chain matched.id = some chain ∧ (∀ len, declaredLength v.req = some len → len ≤ plugins.maxBody) ∧
      (answer = .noTarget ∨ answer = .refused 413 ∧ plugins.maxBody < v.body.body.length ∨
        ∃ target, (s.nextTarget (s.proxy.uriHost v.req.uri) v.req.uri.path).1 = some target ∧
          answer = .plugins chain (pluginRequest v matched (addedHeaders .http3 v) v.body.body)
            ((s.proxy.uriHost v.req.uri).getD []) target ∧ v.body.body.length ≤ plugins.maxBody) := by
  unfold tryPlugins at h
  split at h
  · rename_i plugins matched hplugins hmatched
    split at h
    · cases h
    · rename_i chain hchain
      split at h
      · cases h
      · rename_i hdeclared
        have hle := (declared_fits_iff v.req plugins.maxBody).1 (Bool.eq_false_iff.2 hdeclared)
        refine ⟨plugins, matched, chain, hplugins, hmatched, hchain, hle, ?_⟩
        simp only at h
        split at h
        · exact Or.inl (Option.some.inj h).symm
        · rename_i target htarget
          split at h
          · rename_i hover
            exact Or.inr (Or.inl ⟨(Option.some.inj h).symm, bufferBody_empty_eq_none_iff.1 hover⟩)
          · rename_i buffered hbuffer
            obtain ⟨hfits, rfl⟩ := bufferBody_empty_eq_some_iff.1 hbuffer
            exact Or.inr (Or.inr ⟨target, htarget, (Option.some.inj h).symm, hfits⟩)
  · cases h

/-- **The plugin stage of HTTP/3 hands on the whole request**, exactly when it buffers its body. -/
theorem tryPlugins_hands_iff (s : Server) (v : Visit) (request : PluginRequest) :
    (∃ answer, (tryPlugins s v).1 = some answer ∧ answer.Hands request) ↔
      ∃ matched, s.proxy.upstreamRoute .http3 v.req = some matched ∧ s.Buffers .http3 v matched ∧
        request = pluginRequest v matched (addedHeaders .http3 v) v.body.body := by
  constructor
  · rintro ⟨answer, h, chain', host', target', rfl⟩
    obtain ⟨plugins, matched, chain, hplugins, hmatched, hchain, hle, hcase⟩ := tryPlugins_answer h
    rcases hcase with hanswer | ⟨hanswer, -⟩ | ⟨target, htarget, hanswer, hfits⟩
    · cases hanswer
    · cases hanswer
    · have htargets : matched.targets ≠ [] := (nextTarget_isSome_iff hmatched).1 (by rw [htarget]; rfl)
      cases hanswer
      exact ⟨matched, hmatched, ⟨plugins, hplugins, by simp [hchain], htargets, hle, hfits, fun h => by cases h⟩, rfl⟩
  · rintro ⟨matched, hmatched, ⟨plugins, hplugins, hchain, htargets, hle, hfits, -⟩, rfl⟩
    obtain ⟨chain, hchain⟩ := Option.ne_none_iff_exists'.1 hchain
    have hroute : route s v = some matched := hmatched
    obtain ⟨target, htarget⟩ := Option.isSome_iff_exists.1 ((nextTarget_isSome_iff hroute).2 htargets)
    have hdeclared := (declared_fits_iff v.req plugins.maxBody).2 hle
    have hbuffer := bufferBody_empty_eq_some_iff.2 ⟨hfits, rfl⟩
    have hran : (tryPlugins s v).1 = some (.plugins chain
        (pluginRequest v matched (addedHeaders .http3 v) v.body.body) ((s.proxy.uriHost v.req.uri).getD []) target) := by
      simp only [tryPlugins, hplugins, hroute, hchain, htarget, hdeclared, hbuffer, Bool.false_eq_true, if_false]
      rfl
    exact ⟨_, hran, hands_plugins_iff.2 rfl⟩

/-- The last stage hands no chain a request. -/
theorem not_hands_forward (s : Server) (v : Visit) (contacts : List OriginRequest) (storeKey : Option Str)
    (request : PluginRequest) : ¬ (forward s v contacts storeKey).answer.Hands request := by
  rintro ⟨chain, host, target, h⟩
  unfold forward at h
  simp only at h
  split at h
  · split at h
    · cases h
    · split at h
      · cases h
      · cases h
  · cases h

theorem proxyRequest_hands_iff (s : Server) (v : Visit) (request : PluginRequest) :
    (proxyRequest s v).answer.Hands request ↔
      ¬ s.Denies v.ip ∧ ¬ tooEarly v.handshakeDone v.req.method = true ∧ NoRoot s v ∧
        ∃ answer, (tryPlugins s v).1 = some answer ∧ answer.Hands request := by
  by_cases hdenied : s.Denies v.ip
  · rw [proxyRequest_of_denied hdenied]
    simp [Answer.Hands, hdenied]
  by_cases hearly : tooEarly v.handshakeDone v.req.method = true
  · rw [proxyRequest_of_early hdenied hearly]
    simp [Answer.Hands, hearly]
  rw [and_iff_right hdenied, and_iff_right hearly, ← serveStatic_eq_none_iff]
  cases hstatic : s.serveStatic (route s v) v.req.uri.path with
  | some contents =>
    rw [proxyRequest_of_static hdenied hearly hstatic]
    simp [Answer.Hands]
  | none =>
    rw [and_iff_right rfl]
    have hroot := (serveStatic_eq_none_iff s v).1 hstatic
    cases hanswer : (tryPlugins s v).1 with
    | some answer =>
      rw [proxyRequest_of_plugins hdenied hearly hroot hanswer]
      simp
    | none =>
      refine iff_of_false ?_ (by simp)
      rw [s.denies_iff] at hdenied
      rw [proxyRequest, if_neg hdenied, if_neg hearly, hstatic]
      simp only [hanswer]
      split
      · rename_i answer hcached
        exact not_hands_of_fromCache (Server.consultCache_fromCache _ _ _ hcached)
      · exact not_hands_forward _ _ _ _ request

end Http3

/-- **A plugin chain is handed a request exactly when its route runs one**: the client's, with its whole body and the
route's headers behind its own. -/
theorem handle_hands_iff (s : Server) (listener : Listener) (v : Visit) (request : PluginRequest) :
    (s.handle listener v).answer.Hands request ↔
      ∃ matched, s.RunsPlugins listener v matched ∧
        request = pluginRequest v matched (addedHeaders listener v) v.body.body := by
  unfold Server.handle Server.RunsPlugins Server.Admits
  cases listener with
  | http1 =>
    simp only
    rw [ZaphylProxy.handle_hands_iff, ZaphylProxy.admission_eq_none_iff, ZaphylProxy.tryServeStatic_eq_none_iff,
      ZaphylProxy.tryRunPlugins_hands_iff]
    constructor
    · rintro ⟨hadmitted, hroot, matched, hmatched, hbuffers, hrequest⟩
      exact ⟨matched, ⟨hadmitted, hmatched, hroot matched hmatched, hbuffers⟩, hrequest⟩
    · rintro ⟨matched, ⟨hadmitted, hmatched, hroot, hbuffers⟩, hrequest⟩
      refine ⟨hadmitted, fun m hm => ?_, matched, hmatched, hbuffers, hrequest⟩
      rwa [← Option.some.inj (hmatched.symm.trans hm)]
  | http3 =>
    simp only
    rw [Http3.proxyRequest_hands_iff, Http3.tryPlugins_hands_iff]
    constructor
    · rintro ⟨hdenied, hearly, hroot, matched, hmatched, hbuffers, hrequest⟩
      exact ⟨matched, ⟨⟨hdenied, hearly⟩, hmatched, hroot matched hmatched, hbuffers⟩, hrequest⟩
    · rintro ⟨matched, ⟨⟨hdenied, hearly⟩, hmatched, hroot, hbuffers⟩, hrequest⟩
      refine ⟨hdenied, hearly, fun m hm => ?_, matched, hmatched, hbuffers, hrequest⟩
      have hsame : some m = some matched := hm.symm.trans hmatched
      rwa [Option.some.inj hsame]

end Zaphyl
