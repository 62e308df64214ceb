import Zaphyl.PluginChain
/-!
# PluginRoutes — the chain of a route

The chains are built from the configured routes in order, and `build_router` numbers the routes in the same order, so the
chain that a matched route's number finds is the global plugins and its own (`plugin_chain_order`).
-/
namespace Zaphyl

namespace Plugins

variable {w : PluginWorld} {settings : Option Settings} {config : Config} {plugins : Plugins}

theorem loadAll_eq_some {paths loaded : List Str} (h : loadAll w paths = some loaded) : loaded = paths := by
  unfold loadAll at h
  induction paths generalizing loaded with
  | nil =>
    rw [List.mapM_nil, Option.pure_def] at h
    exact (Option.some.inj h).symm
  | cons path paths ih =>
    rw [List.mapM_cons] at h
    obtain ⟨p, hp, h⟩ := Option.bind_eq_some_iff.1 h
    obtain ⟨rest, hrest, h⟩ := Option.bind_eq_some_iff.1 h
    obtain ⟨_, -, hp⟩ := Option.map_eq_some_iff.1 hp
    rw [Option.pure_def] at h
    rw [← Option.some.inj h, ih hrest, ← hp]

theorem mapM_chains (loaded : List Str) : ∀ {routes : List RouteConfig} {chains : List (List Str)},
    routes.mapM (fun route => do
      let own ← loadAll w route.plugins
      return loaded ++ own) = some chains → chains = routes.map (fun route => loaded ++ route.plugins)
  | [], chains, h => by
    rw [List.mapM_nil, Option.pure_def] at h
    exact (Option.some.inj h).symm
  | route :: routes, chains, h => by
    rw [List.mapM_cons] at h
    obtain ⟨chain, hchain, h⟩ := Option.bind_eq_some_iff.1 h
    obtain ⟨rest, hrest, h⟩ := Option.bind_eq_some_iff.1 h
    obtain ⟨own, hown, hchain⟩ := Option.bind_eq_some_iff.1 hchain
    rw [Option.pure_def] at hchain h
    rw [← Option.some.inj h, ← Option.some.inj hchain, loadAll_eq_some hown, mapM_chains loaded hrest, List.map_cons]

/-- **The chains of the routes, in their order**: the global plugins and the route's own. -/
theorem chains_of_build (h : build w settings config = some (some plugins)) :
    plugins.chains = config.routes.map (fun route => globalOf settings ++ route.plugins) := by
  unfold build at h
  simp only at h
  split at h
  · cases h
  · obtain ⟨loaded, hloaded, h⟩ := Option.bind_eq_some_iff.1 h
    obtain ⟨chains, hchains, h⟩ := Option.bind_eq_some_iff.1 h
    rw [Option.pure_def] at h
    have hplugins : chains = plugins.chains := congrArg Plugins.chains (Option.some.inj (Option.some.inj h))
    rw [← hplugins, mapM_chains loaded hchains, loadAll_eq_some hloaded]

theorem chain_of_build (h : build w settings config = some (some plugins)) {i : Nat} {rc : RouteConfig}
    (hroute : config.routes[i]? = some rc) : plugins.chain i =
      if globalOf settings ++ rc.plugins = [] then none else some (globalOf settings ++ rc.plugins) := by
  unfold chain
  rw [chains_of_build h, List.getElem?_map, hroute, Option.map_some]
  by_cases hnil : globalOf settings ++ rc.plugins = []
  · rw [if_pos hnil, hnil]
    rfl
  · rw [if_neg hnil]
    exact Option.filter_some_pos (decide_eq_true hnil)

end Plugins

/-! ## The matched route -/

/-- The number of a matched route is that of the first configured route that accepts the request. -/
theorem matchedConfig_of_running {router : Router} {config : Config} (h : router.configured = buildRouter config)
    {host : Option Str} {path : Str} {matched : Route} (hmatched : router.matchRoute host path = some matched) :
    ∃ rc, config.routes.find? (fun r => r.accepts host path) = some rc ∧ config.routes[matched.id]? = some rc := by
  have hbuilt : (buildRouter config).matchRoute host path = some matched.configured := by
    rw [← h, Router.matchRoute_configured, hmatched]
    rfl
  rw [matchRoute_buildRouter] at hbuilt
  obtain ⟨x, hx, hroute⟩ := Option.map_eq_some_iff.1 hbuilt
  have hid : matched.id = x.2 := by
    have hsame : matched.configured.id = matched.id := rfl
    rw [← hsame, ← hroute, id_buildRoute]
  refine ⟨x.1, ?_, ?_⟩
  · rw [← map_fst_find?_zipIdx (fun r : RouteConfig => r.accepts host path), hx]
    rfl
  · rw [hid]
    exact List.mem_zipIdx_iff_getElem?.1 (List.mem_of_find?_eq_some hx)

/-- The client's host as a chain is handed it: the whole `Host` header, or the host of the URI. -/
def Server.clientHost (s : Server) (listener : Listener) (req : Request) : Str :=
  match listener with
  | .http1 => (req.headers.getStr HeaderName.host).getD []
  | .http3 => (s.proxy.uriHost req.uri).getD []

/-- The chain of the matched route's number, with the client's host and the route's next target. -/
def Server.HandsTo (s : Server) (listener : Listener) (v : Visit) (chain : List Str) (host : Str) (target : Target) :
    Prop :=
  ∃ plugins matched, s.plugins = some plugins ∧ s.proxy.upstreamRoute listener v.req = some matched ∧
    plugins.chain matched.id = some chain ∧ host = s.clientHost listener v.req ∧ matched.nextTarget.1 = some target

theorem target_of_route {s : Server} {host : Option Str} {path : Str} {matched : Route}
    (h : s.proxy.router.matchRoute host path = some matched) : (s.nextTarget host path).1 = matched.nextTarget.1 := by
  simp [Server.nextTarget, Router.nextTarget, h]

theorem ZaphylProxy.tryRunPlugins_chain {s : Server} {v : Visit} {chain : List Str} {request : PluginRequest}
    {host : Str} {target : Target} (h : (tryRunPlugins s v).1 = some (.plugins chain request host target)) :
    s.HandsTo .http1 v chain host target := by
  obtain ⟨plugins, matched, chain', target', hplugins, hmatched, hchain, htarget, -, hcase⟩ := tryRunPlugins_answer h
  rcases hcase with ⟨hanswer, -⟩ | ⟨hanswer, -⟩ | ⟨hanswer, -⟩
  · cases hanswer
  · cases hanswer
  · cases hanswer
    exact ⟨plugins, matched, hplugins, hmatched, hchain, rfl, (target_of_route hmatched).symm.trans htarget⟩

theorem Http3.tryPlugins_chain {s : Server} {v : Visit} {chain : List Str} {request : PluginRequest} {host : Str}
    {target : Target} (h : (tryPlugins s v).1 = some (.plugins chain request host target)) :
    s.HandsTo .http3 v chain host target := by
  obtain ⟨plugins, matched, chain', hplugins, hmatched, hchain, -, hcase⟩ := tryPlugins_answer h
  rcases hcase with hanswer | ⟨hanswer, -⟩ | ⟨target', htarget, hanswer, -⟩
  · cases hanswer
  · cases hanswer
  · cases hanswer
    exact ⟨plugins, matched, hplugins, hmatched, hchain, rfl, (target_of_route hmatched).symm.trans htarget⟩

/-- **A listener hands a request to the chain of its matched route's number.** -/
theorem handle_chain {s : Server} {listener : Listener} {v : Visit} {chain : List Str} {request : PluginRequest}
    {host : Str} {target : Target} (h : (s.handle listener v).answer = .plugins chain request host target) :
    s.HandsTo listener v chain host target := by
  have hhands : (s.handle listener v).answer.Hands request := ⟨chain, host, target, h⟩
  cases listener with
  | http1 =>
    obtain ⟨hadmitted, hstatic, hran⟩ := (ZaphylProxy.handle_hands_iff s v request).1 hhands
    obtain ⟨hplugins, hproxy⟩ := ZaphylProxy.admission_keeps s (some v.ip) v.nowMs v.req
    have hran : (ZaphylProxy.tryRunPlugins (ZaphylProxy.admission s (some v.ip) v.nowMs v.req).2 v).1 ≠ none := by
      obtain ⟨matched, hmatched, hbuffers, hrequest⟩ := (ZaphylProxy.tryRunPlugins_hands_iff s v request).1 hran
      have hsame := (ZaphylProxy.tryRunPlugins_hands_iff (ZaphylProxy.admission s (some v.ip) v.nowMs v.req).2 v
        request).2
      unfold Server.Buffers at hsame hbuffers
      rw [hplugins, hproxy] at hsame
      obtain ⟨answer, hanswer, -⟩ := hsame ⟨matched, hmatched, hbuffers, hrequest⟩
      rw [hanswer]
      exact Option.some_ne_none _
    obtain ⟨answer, hanswer⟩ := Option.ne_none_iff_exists'.1 hran
    have hfiltered := ZaphylProxy.requestFilter_behind_root hadmitted hstatic
    simp only [hanswer] at hfiltered
    have hsame : (s.handle .http1 v).answer = answer := by
      show (ZaphylProxy.handle s v).answer = answer
      unfold ZaphylProxy.handle
      rw [hfiltered]
    rw [hsame] at h
    have hchain := ZaphylProxy.tryRunPlugins_chain (h ▸ hanswer)
    unfold Server.HandsTo Server.clientHost at hchain ⊢
    rwa [hplugins, hproxy] at hchain
  | http3 =>
    obtain ⟨hdenied, hearly, hroot, answer, hanswer, -⟩ := (Http3.proxyRequest_hands_iff s v request).1 hhands
    have hran : (s.handle .http3 v).answer = answer := by
      show (Http3.proxyRequest s v).answer = answer
      rw [Http3.proxyRequest_of_plugins hdenied hearly hroot hanswer]
    rw [hran] at h
    exact Http3.tryPlugins_chain (h ▸ hanswer)

/-- **What a chain is handed determines the route**, and with it everything else. -/
theorem handed_by_route {w : PluginWorld} {settings : Option Plugins.Settings} {config : Config} {plugins : Plugins}
    (hbuild : Plugins.build w settings config = some (some plugins)) {s : Server}
    (hrunning : s.proxy.router.configured = buildRouter config) (hplugins : s.plugins = some plugins)
    {listener : Listener} {v : Visit} {chain : List Str} {request : PluginRequest} {host : Str} {target : Target}
    (h : (s.handle listener v).answer = .plugins chain request host target) :
    ∃ matched rc, s.RunsPlugins listener v matched ∧ config.routes[matched.id]? = some rc ∧
      config.routes.find? (fun r => r.accepts (s.hostOf listener v.req) v.req.uri.path) = some rc ∧
      chain = Plugins.globalOf settings ++ rc.plugins ∧
      request = pluginRequest v matched (addedHeaders listener v) v.body.body ∧
      host = s.clientHost listener v.req ∧ matched.nextTarget.1 = some target := by
  obtain ⟨matched, hruns, hrequest⟩ := (handle_hands_iff s listener v request).1 ⟨chain, host, target, h⟩
  obtain ⟨p, matched', hp, hmatched', hchain, hhost, htarget⟩ := handle_chain h
  rw [hplugins] at hp
  obtain rfl := Option.some.inj hp
  obtain rfl := Option.some.inj (hruns.2.1.symm.trans hmatched')
  have hmatched : s.proxy.router.matchRoute (s.hostOf listener v.req) v.req.uri.path = some matched := by
    cases listener with
    | http1 => exact hmatched'
    | http3 => exact hmatched'
  obtain ⟨rc, hfound, hroute⟩ := matchedConfig_of_running hrunning hmatched
  rw [Plugins.chain_of_build hbuild hroute] at hchain
  split at hchain
  · cases hchain
  · exact ⟨matched, rc, hruns, hroute, hfound, (Option.some.inj hchain).symm, hrequest, hhost, htarget⟩

/-- **Plugin chain order**: for every route the chain found by its number is the global plugins and its own; a listener
hands a request, under the client's host and with the next target, to the chain of the first route that accepts it,
exactly when that route runs its chain; and a run of any chain calls the hooks in order. -/
theorem plugin_chain_order {w : PluginWorld} {settings : Option Plugins.Settings} {config : Config} {plugins : Plugins}
    (hbuild : Plugins.build w settings config = some (some plugins)) :
    (∀ i rc, config.routes[i]? = some rc → plugins.chain i =
      if Plugins.globalOf settings ++ rc.plugins = [] then none else some (Plugins.globalOf settings ++ rc.plugins)) ∧
    (∀ s : Server, s.proxy.router.configured = buildRouter config → s.plugins = some plugins →
      ∀ listener v chain request host target, (s.handle listener v).answer = .plugins chain request host target ↔
        ∃ matched rc, s.RunsPlugins listener v matched ∧ config.routes[matched.id]? = some rc ∧
          config.routes.find? (fun r => r.accepts (s.hostOf listener v.req) v.req.uri.path) = some rc ∧
          chain = Plugins.globalOf settings ++ rc.plugins ∧
          request = pluginRequest v matched (addedHeaders listener v) v.body.body ∧
          host = s.clientHost listener v.req ∧ matched.nextTarget.1 = some target) ∧
    ∀ chain request host target, RunsInOrder w plugins chain request host target := by
  refine ⟨fun i rc hroute => Plugins.chain_of_build hbuild hroute, ?_, Plugins.run_in_order w plugins⟩
  intro s hrunning hplugins listener v chain request host target
  constructor
  · exact handed_by_route hbuild hrunning hplugins
  · rintro ⟨matched, rc, hruns, hroute, -, rfl, rfl, rfl, htarget⟩
    obtain ⟨chain, host, target', hanswer⟩ := (handle_hands_iff s listener v _).2 ⟨matched, hruns, rfl⟩
    obtain ⟨matched', rc', hruns', hroute', -, rfl, -, rfl, htarget'⟩ :=
      handed_by_route hbuild hrunning hplugins hanswer
    obtain rfl := Option.some.inj (hruns.2.1.symm.trans hruns'.2.1)
    obtain rfl := Option.some.inj (hroute.symm.trans hroute')
    obtain rfl := Option.some.inj (htarget.symm.trans htarget')
    exact hanswer

/-! ## Two plugins -/

namespace Plugins

def signed (path : Str) (headers : List (Str × Str)) : List (Str × Str) := headers ++ [("x-plugin".toList, path)]

/-- Components that continue with the method they name, and leave their path on the request and on the response. -/
def overwriting (method : Str) : PluginWorld where
  load path := some ⟨fun r => some (.continue { r with method := method, headers := signed path r.headers }),
    fun r => some { r with headers := signed path r.headers }⟩
  validUri _ := true
  answer _ := some (⟨200, ⟨[]⟩⟩, [[1, 2, 3]])

def twoPlugins (maxBody : Nat) : Settings := ⟨["a".toList], maxBody⟩

/-- One route with a plugin of its own. -/
def pluginConfig : Config :=
  ⟨none, none, none, none, none, none, none, none, none,
    [⟨none, none, ["u:80".toList], none, false, false, [], [], false, ["b".toList]⟩]⟩

def builtPlugins (maxBody : Nat) : Plugins := ⟨[["a".toList, "b".toList]], maxBody⟩

theorem build_twoPlugins (method : Str) (maxBody : Nat) :
    build (overwriting method) (some (twoPlugins maxBody)) pluginConfig = some (some (builtPlugins maxBody)) := rfl

def getPlain : PluginRequest := ⟨"GET".toList, "/".toList, [], [], "1.2.3.4".toList⟩

def plainTarget : Target := Target.new "u:80".toList false "u".toList

/-- The page as a chain is handed it. -/
def handedPage : PluginRequest :=
  ⟨"GET".toList, "/".toList, [("host".toList, "a.test".toList)], [], "127.0.0.1".toList⟩

/-- A server that runs the route and its chain. -/
def pluginServer : Server :=
  { runningServer (buildRouter pluginConfig) with plugins := some (builtPlugins 10) }

/-- **A page comes to the chain of its route**, behind another visit, and the chain's run calls each plugin's hooks, the
response's in reverse. -/
theorem page_through_two_plugins :
    let v := visitOf (getPage "a.test".toList)
    let s := pluginServer.after [(.http3, v)]
    let p := builtPlugins 10
    let chain := ["a".toList, "b".toList]
    let twice := signed "b".toList (signed "a".toList handedPage.headers)
    (s.handle .http1 v).answer = .plugins chain handedPage "a.test".toList plainTarget ∧
      (∃ matched, s.RunsPlugins .http1 v matched) ∧
      ∃ sent : FetchedRequest, sent.GoesTo plainTarget ∧
        sent.Carries { handedPage with headers := twice } "a.test".toList plainTarget ∧
        p.run (overwriting "GET".toList) chain handedPage "a.test".toList plainTarget =
          ⟨[.request "a".toList handedPage,
              .request "b".toList { handedPage with headers := signed "a".toList handedPage.headers },
              .response "b".toList ⟨200, [], [1, 2, 3]⟩,
              .response "a".toList ⟨200, signed "b".toList [], [1, 2, 3]⟩],
            [sent], some ⟨200, signed "a".toList (signed "b".toList []), [1, 2, 3]⟩⟩ := by
  intro v s p chain twice
  obtain ⟨-, hhands, hruns⟩ := plugin_chain_order (build_twoPlugins "GET".toList 10)
  have hanswer : (s.handle .http1 v).answer = .plugins chain handedPage "a.test".toList plainTarget := rfl
  obtain ⟨matched, -, hmatched, -⟩ := (hhands s (running_after rfl _) rfl .http1 v _ _ _ _).1 hanswer
  have hcontinues : PluginChain.Continues (overwriting "GET".toList) chain handedPage _
      { handedPage with headers := twice } := .cons rfl (.cons rfl .nil)
  have hmethod : ∀ c ∈ "GET".toList, isNameChar c = true ∨ c.isUpper = true := by
    simp only [← Bool.or_eq_true, ← List.all_eq_true]
    decide
  obtain ⟨sent, -, hcarries, hgoes, hanswered⟩ := (hruns chain handedPage "a.test".toList plainTarget).sends hcontinues
    ⟨⟨by decide, hmethod⟩, rfl, by decide, by decide⟩
  refine ⟨hanswer, ⟨matched, hmatched⟩, sent, hgoes (by decide), hcarries, ?_⟩
  exact hanswered.answers ⟨_, _, rfl, by decide, rfl⟩ (.cons rfl (.cons rfl .nil))

/-- **All may continue and nothing be sent**: no HTTP request has the method that is left.  And a response over the cap
comes to no response hook. -/
theorem continued_request_unsent :
    let chain := ["a".toList, "b".toList]
    (∃ inputs final, PluginChain.Continues (overwriting "NOT OK".toList) chain getPlain inputs final ∧
      ((builtPlugins 10).run (overwriting "NOT OK".toList) chain getPlain "h".toList plainTarget).sent = []) ∧
    ((builtPlugins 2).run (overwriting "GET".toList) chain getPlain "h".toList plainTarget).sent ≠ [] ∧
    ((builtPlugins 2).run (overwriting "GET".toList) chain getPlain "h".toList plainTarget).calls =
      [.request "a".toList getPlain,
        .request "b".toList { getPlain with headers := signed "a".toList getPlain.headers }] :=
  ⟨⟨_, _, .cons rfl (.cons rfl .nil), by decide⟩, by decide, by decide⟩

end Plugins

end Zaphyl
