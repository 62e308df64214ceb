import Zaphyl.ForwardStage
/-!
# ReplayRule — what early data makes the HTTP/3 listener send

An early request is refused when its method is unsafe, and carries `Early-Data: 1` when it is forwarded.  The
conditional request that revalidates a stale entry is another request, built from the entry's host and tag alone; the
rule holds of an early request exactly when it sends none (`replay_rule_iff`).
-/
namespace Zaphyl
namespace Http3

/-- The request's route has no plugin chain. -/
def PluginFree (s : Server) (v : Visit) : Prop :=
  ∀ plugins matched, s.plugins = some plugins → route s v = some matched → plugins.chain matched.id = none

/-- The cache makes the listener send a conditional request: a stale entry has a tag, its route a target, and the
request's parts are valid. -/
def Revalidates (s : Server) (v : Visit) (request : OriginRequest) : Prop :=
  ∃ cache l hit cache', s.cache = some cache ∧ s.proxy.lookupOf .http3 v.req = some l ∧
    cache.lookup s.proxy.hash v.env l.key v.now = .ok (.stale hit, cache') ∧ revalidation s v l hit = some request

/-- **The replay rule**: an unsafe request is answered 403 or 425 and nothing is sent; what a safe one makes the
listener send carries `Early-Data: 1`. -/
structure ReplayRule (s : Server) (v : Visit) : Prop where
  refused : isSafeMethod v.req.method = false →
    ((proxyRequest s v).answer = .refused 403 ∨ (proxyRequest s v).answer = .refused 425) ∧
      (proxyRequest s v).contacts = []
  marked : isSafeMethod v.req.method = true →
    ∀ request ∈ (proxyRequest s v).contacts, earlyDataOne ∈ request.headers.lines

/-! ## What is sent -/

/-- **A conditional request does not carry `Early-Data`.** -/
theorem not_marked_of_conditional {s : Server} {target : Target} {l : CacheLookup} {etag : Str} {request : OriginRequest}
    (h : s.conditional target l etag = some request) : earlyDataOne ∉ request.headers.lines := by
  unfold Server.conditional at h
  split at h
  · obtain ⟨headers, hheaders, rfl⟩ := Option.map_eq_some_iff.1 h
    intro hmem
    rcases name_of_mem_foldlM_addHeader hheaders hmem with hnone | ⟨x, hx, hname⟩
    · cases hnone
    · have hhost : HeaderName.parse HeaderName.host.text ≠ some HeaderName.earlyData := by decide
      have htag : HeaderName.parse HeaderName.ifNoneMatch.text ≠ some HeaderName.earlyData := by decide
      rcases List.mem_cons.1 hx with rfl | hx
      · exact hhost hname
      · rw [List.mem_singleton] at hx
        subst hx
        exact htag hname
  · cases h

/-- **A forwarded early request carries `Early-Data: 1`.** -/
theorem marked_of_upstreamRequest {s : Server} {v : Visit} {matched : Route} {target : Target} {request : OriginRequest}
    (hearly : v.handshakeDone = false) (h : upstreamRequest s v matched target = some request) :
    earlyDataOne ∈ request.headers.lines := by
  unfold upstreamRequest at h
  simp only [hearly, Bool.false_eq_true, if_false] at h
  split at h
  · obtain ⟨headers, -, rfl⟩ := Option.map_eq_some_iff.1 h
    exact (HeaderMap.mem_append _ _ _ _).2 (Or.inl rfl)
  · cases h

theorem contacts_forward (s : Server) (v : Visit) (contacts : List OriginRequest) (storeKey : Option Str) :
    (forward s v contacts storeKey).contacts = contacts ∨
      ∃ t matched target request, upstreamRequest t v matched target = some request ∧
        (forward s v contacts storeKey).contacts = contacts ++ [request] := by
  unfold forward
  simp only
  split
  · rename_i matched target hmatched htarget
    split
    · exact Or.inl rfl
    · cases hreq : upstreamRequest (s.nextTarget (s.proxy.uriHost v.req.uri) v.req.uri.path).2 v matched target with
      | none => exact Or.inl rfl
      | some request => exact Or.inr ⟨_, matched, target, request, hreq, rfl⟩
  · exact Or.inl rfl

theorem tryPlugins_of_pluginFree {s : Server} {v : Visit} (h : PluginFree s v) : tryPlugins s v = (none, s) := by
  apply tryPlugins_of_off
  rintro cap ⟨plugins, matched, hplugins, hmatched, hchain, -⟩
  exact hchain (h plugins matched hplugins hmatched)

/-- **Behind the gates and the document root, the cache's conditional request comes first and a forwarded one last.** -/
theorem contacts_behind_gates {s : Server} {v : Visit} (hfree : PluginFree s v) (hdenied : ¬ s.Denies v.ip)
    (hearly : ¬ tooEarly v.handshakeDone v.req.method = true) (hroot : NoRoot s v) :
    (proxyRequest s v).contacts = (s.consultCache .http3 v).contacts ∨
      ∃ t matched target request, upstreamRequest t v matched target = some request ∧
        (proxyRequest s v).contacts = (s.consultCache .http3 v).contacts ++ [request] := by
  rw [proxyRequest_of_passed hdenied hearly hroot (tryPlugins_of_pluginFree hfree)]
  cases (s.consultCache .http3 v).answer with
  | some answer => exact Or.inl rfl
  | none => exact contacts_forward ..

theorem contacts_of_root {s : Server} {v : Visit} (hdenied : ¬ s.Denies v.ip)
    (hearly : ¬ tooEarly v.handshakeDone v.req.method = true) (hroot : ¬ NoRoot s v) :
    (proxyRequest s v).contacts = [] := by
  rw [← serveStatic_eq_none_iff] at hroot
  obtain ⟨contents, hstatic⟩ := Option.ne_none_iff_exists'.1 hroot
  rw [proxyRequest_of_static hdenied hearly hstatic]

/-- A request that may be revalidated is safe. -/
theorem isSafeMethod_of_revalidates {s : Server} {v : Visit} {request : OriginRequest} (h : Revalidates s v request) :
    isSafeMethod v.req.method = true := by
  obtain ⟨-, l, -, -, -, hl, -⟩ := h
  rw [method_of_cacheLookup hl]
  decide

/-- **An unsafe early request is refused and nothing is sent.** -/
theorem refused_of_unsafe {s : Server} {v : Visit} (hearly : v.handshakeDone = false)
    (h : isSafeMethod v.req.method = false) :
    ((proxyRequest s v).answer = .refused 403 ∨ (proxyRequest s v).answer = .refused 425) ∧
      (proxyRequest s v).contacts = [] := by
  have htoo : tooEarly v.handshakeDone v.req.method = true := by simp [tooEarly, hearly, h]
  by_cases hdenied : s.Denies v.ip
  · rw [proxyRequest_of_denied hdenied]
    exact ⟨Or.inl rfl, rfl⟩
  · rw [proxyRequest_of_early hdenied htoo]
    exact ⟨Or.inr rfl, rfl⟩

theorem not_tooEarly_of_safe {done : Bool} {method : Str} (h : isSafeMethod method = true) : ¬ tooEarly done method = true := by
  simp [tooEarly, h]

/-- **A conditional request is among what is sent, and carries no `Early-Data`.** -/
theorem sent_of_revalidates {s : Server} {v : Visit} {request : OriginRequest} (hfree : PluginFree s v)
    (hdenied : ¬ s.Denies v.ip) (hroot : NoRoot s v) (h : Revalidates s v request) :
    request ∈ (proxyRequest s v).contacts ∧ earlyDataOne ∉ request.headers.lines := by
  have hpassed : ¬ tooEarly v.handshakeDone v.req.method = true := not_tooEarly_of_safe (isSafeMethod_of_revalidates h)
  have hmem := (s.mem_contacts_consultCache .http3 v request).2 h
  constructor
  · rcases contacts_behind_gates hfree hdenied hpassed hroot with hsent | ⟨t, matched, target, last, -, hsent⟩
    · rwa [hsent]
    · rw [hsent]
      exact List.mem_append_left _ hmem
  · obtain ⟨cache, l, hit, cache', -, -, -, hconditional⟩ := h
    obtain ⟨etag, -, hbind⟩ := Option.bind_eq_some_iff.1 hconditional
    obtain ⟨target, -, hbuilt⟩ := Option.bind_eq_some_iff.1 hbind
    exact not_marked_of_conditional hbuilt

/-- **Where no conditional request is sent, what is sent carries `Early-Data: 1`.** -/
theorem marked_of_unrevalidated {s : Server} {v : Visit} (hearly : v.handshakeDone = false) (hfree : PluginFree s v)
    (hmethod : isSafeMethod v.req.method = true)
    (h : s.Denies v.ip ∨ ¬ NoRoot s v ∨ ¬ ∃ request, Revalidates s v request) :
    ∀ request ∈ (proxyRequest s v).contacts, earlyDataOne ∈ request.headers.lines := by
  intro request hmem
  by_cases hdenied : s.Denies v.ip
  · rw [proxyRequest_of_denied hdenied] at hmem
    cases hmem
  by_cases hroot : NoRoot s v
  · have hnone : (s.consultCache .http3 v).contacts = [] := by
      rw [List.eq_nil_iff_forall_not_mem]
      intro sent hsent
      rcases h with h | h | h
      · exact hdenied h
      · exact h hroot
      · exact h ⟨sent, (s.mem_contacts_consultCache .http3 v sent).1 hsent⟩
    rcases contacts_behind_gates hfree hdenied (not_tooEarly_of_safe hmethod) hroot with
      hsent | ⟨t, matched, target, last, hlast, hsent⟩
    · rw [hsent, hnone] at hmem
      cases hmem
    · rw [hsent, hnone, List.nil_append, List.mem_singleton] at hmem
      subst hmem
      exact marked_of_upstreamRequest hearly hlast
  · rw [contacts_of_root hdenied (not_tooEarly_of_safe hmethod) hroot] at hmem
    cases hmem

/-- **An early request keeps the replay rule exactly when it revalidates no stale entry**: it is denied, its route has a
document root, or the cache sends nothing for it. -/
theorem replay_rule_iff (s : Server) (v : Visit) (hearly : v.handshakeDone = false) (hfree : PluginFree s v) :
    ReplayRule s v ↔ s.Denies v.ip ∨ ¬ NoRoot s v ∨ ¬ ∃ request, Revalidates s v request := by
  constructor
  · intro hrule
    by_contra hnot
    push Not at hnot
    obtain ⟨hdenied, hroot, request, hrevalidates⟩ := hnot
    obtain ⟨hsent, hunmarked⟩ := sent_of_revalidates hfree hdenied hroot hrevalidates
    exact hunmarked (hrule.marked (isSafeMethod_of_revalidates hrevalidates) request hsent)
  · exact fun h => ⟨fun hmethod => refused_of_unsafe hearly hmethod,
      fun hmethod => marked_of_unrevalidated hearly hfree hmethod h⟩

/-! ## An early request for a stale entry -/

def earlyVisit : Visit := { visitOf (getPage "a.test".toList) with handshakeDone := false, now := thirdSecond }

theorem pluginFree_of_none {s : Server} (h : s.plugins = none) (v : Visit) : PluginFree s v := by
  intro plugins matched hplugins
  rw [h] at hplugins
  cases hplugins

theorem early_page_marked :
    earlyVisit.handshakeDone = false ∧ PluginFree (runningServer oneUpstream.router) earlyVisit ∧
      (ReplayRule (runningServer oneUpstream.router) earlyVisit ↔
        (runningServer oneUpstream.router).Denies earlyVisit.ip ∨ ¬ NoRoot (runningServer oneUpstream.router) earlyVisit ∨
          ¬ ∃ request, Revalidates (runningServer oneUpstream.router) earlyVisit request) :=
  ⟨rfl, pluginFree_of_none rfl _, replay_rule_iff _ earlyVisit rfl (pluginFree_of_none rfl _)⟩

/-- A server whose cache has a stale page with a tag. -/
def staleServer : Server :=
  let page : CachedResponse := ⟨200, [("etag".toList, "v1".toList)], []⟩
  let key := cacheKey "a.test".toList ['/'] none
  { runningServer oneUpstream.router with
    cache := some ((ResponseCache.new 8).put oneUpstream.hash Env.kept key firstSecond page) }

/-- **An early request for a stale page makes the listener send a request without `Early-Data`.** -/
theorem stale_page_not_marked :
    earlyVisit.handshakeDone = false ∧ PluginFree staleServer earlyVisit ∧ isSafeMethod earlyVisit.req.method = true ∧
      (proxyRequest staleServer earlyVisit).contacts ≠ [] ∧
      (∀ request ∈ (proxyRequest staleServer earlyVisit).contacts.take 1, earlyDataOne ∉ request.headers.lines) ∧
      ¬ ReplayRule staleServer earlyVisit := by
  have hcontact : ∃ request rest, (proxyRequest staleServer earlyVisit).contacts = request :: rest ∧
      earlyDataOne ∉ request.headers.lines := ⟨_, _, rfl, by decide⟩
  obtain ⟨request, rest, hcontacts, hmarked⟩ := hcontact
  refine ⟨rfl, pluginFree_of_none rfl _, by decide, by simp [hcontacts], by simpa [hcontacts] using hmarked, fun hrule => ?_⟩
  exact hmarked (hrule.marked (by decide) request (by simp [hcontacts]))

end Http3
end Zaphyl
