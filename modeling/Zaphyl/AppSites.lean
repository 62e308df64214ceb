import Zaphyl.SiteRouting
import Zaphyl.StoragePolicy
import Zaphyl.Visits
/-!
# AppSites — what becomes of a site's requests

Every site's route has the site's document root, an app site's as well as any other's, and both listeners look at the
root before the upstream.  So a request for a site is refused at a gate or answered from the site's root, and an app
site's upstream hears of none (`app_site_never_proxied`).
-/
namespace Zaphyl

open Text (eqIgnoreAsciiCase)

/-! ## The router of a running server -/

theorem configured_buildRoute (route : RouteConfig) (index : Nat) :
    (buildRoute route index).configured = buildRoute route index := by
  have htargets : (route.upstream.map (buildTarget route)).map (fun t => { t with healthy := true }) =
      route.upstream.map (buildTarget route) := by
    rw [List.map_map]
    rfl
  unfold buildRoute
  cases route.root with
  | none => simp only [Route.configured, Route.new, Route.withId, Route.withStripPrefix, Route.withHeaders, htargets]
  | some root =>
    simp only [Route.configured, Route.new, Route.withId, Route.withStripPrefix, Route.withHeaders, Route.withStatic,
      htargets]

/-- A built router is as it is configured. -/
theorem configured_buildRouter (config : Config) : (buildRouter config).configured = buildRouter config := by
  unfold Router.configured buildRouter
  rw [List.map_map]
  congr 2
  funext p
  exact configured_buildRoute p.1 p.2

/-- **A server that starts with a built router runs it after every history of visits.** -/
theorem running_after {s : Server} {config : Config} (h : s.proxy.router = buildRouter config)
    (history : List (Listener × Visit)) : (s.after history).proxy.router.configured = buildRouter config := by
  have hsame : (s.after history).settings.proxy.router = s.settings.proxy.router := by rw [s.settings_after]
  have hstart : s.proxy.router.configured = buildRouter config := by rw [h, configured_buildRouter]
  exact hsame.trans hstart

/-- **A running router matches the route of the configured one**, up to its number, health and rotation. -/
theorem matchRoute_of_running {router : Router} {config : Config} (h : router.configured = buildRouter config)
    {host : Option Str} {path : Str} {rc : RouteConfig} (hmatched : matchedConfig config host path = some rc) :
    ∃ route, router.matchRoute host path = some route ∧ route.configured.withId 0 = buildRoute rc 0 := by
  have hwith := matchRoute_withId config host path
  rw [hmatched, Option.map_some, ← h, Router.matchRoute_configured, Option.map_map, Option.map_eq_some_iff] at hwith
  exact hwith

/-! ## A site's requests -/

/-- The host a listener routes by. -/
def Server.hostOf (s : Server) (listener : Listener) (req : Request) : Option Str :=
  match listener with
  | .http1 => ZaphylProxy.headerHost req
  | .http3 => s.proxy.uriHost req.uri

theorem staticDir_buildRoute (rc : RouteConfig) (index : Nat) : (buildRoute rc index).staticDir = rc.root := by
  unfold buildRoute
  cases rc.root <;> rfl

theorem rewritePath_toRoute {site : SiteConfig} {rc : RouteConfig} (h : site.toRoute = some rc) (path : Str) :
    (buildRoute rc 0).rewritePath path = none := by
  obtain ⟨-, rfl⟩ := toRoute_eq_some h
  rfl

/-- **A site's request is served by its document root.** -/
theorem serveStatic_of_site {s : Server} {config : Config} (hrunning : s.proxy.router.configured = buildRouter config)
    {host : Option Str} {path : Str} {site : SiteConfig} {rc : RouteConfig} (hroute : site.toRoute = some rc)
    (hmatched : matchedConfig config host path = some rc) :
    s.serveStatic (s.proxy.router.matchRoute host path) path = some (s.files site.root path) := by
  obtain ⟨route, hfound, hsame⟩ := matchRoute_of_running hrunning hmatched
  have hdir : route.staticDir = some site.root := by
    have hbuilt : (route.configured.withId 0).staticDir = some site.root := by
      rw [hsame, staticDir_buildRoute, (toRoute_eq_some hroute).2]
    exact hbuilt
  have hpath : route.rewritePath path = none := by
    have hbuilt : (route.configured.withId 0).rewritePath path = none := by
      rw [hsame, rewritePath_toRoute hroute]
    exact hbuilt
  unfold Server.serveStatic
  rw [hfound, Option.bind_some, hdir, Option.map_some, hpath, Option.getD_none]

/-- An answer from the document root, with nothing sent to an origin. -/
def Handled.FromRoot (h : Handled) (s : Server) (root path : Str) : Prop :=
  h.answer = .file (s.files root path) ∧ h.contacts = []

def Handled.Refused (h : Handled) : Prop := (∃ status, h.answer = .refused status) ∧ h.contacts = []

/-- **Either listener refuses a request with a document root, or answers it from there.** -/
theorem handle_of_serveStatic {s : Server} {listener : Listener} {v : Visit} {contents : Option Bytes}
    (h : s.serveStatic (s.proxy.router.matchRoute (s.hostOf listener v.req) v.req.uri.path) v.req.uri.path =
      some contents) :
    (s.handle listener v).Refused ∨ (s.handle listener v).answer = .file contents ∧ (s.handle listener v).contacts = [] := by
  cases listener with
  | http1 =>
    cases hadmitted : (ZaphylProxy.admission s (some v.ip) v.nowMs v.req).1 with
    | some status =>
      obtain ⟨hanswer, hcontacts⟩ := ZaphylProxy.handle_of_refused hadmitted
      exact Or.inl ⟨⟨status, hanswer⟩, hcontacts⟩
    | none => exact Or.inr (ZaphylProxy.handle_of_static hadmitted h)
  | http3 =>
    show (Http3.proxyRequest s v).Refused ∨ _
    by_cases hdenied : s.Denies v.ip
    · rw [Http3.proxyRequest_of_denied hdenied]
      exact Or.inl ⟨⟨403, rfl⟩, rfl⟩
    · by_cases hearly : Http3.tooEarly v.handshakeDone v.req.method = true
      · rw [Http3.proxyRequest_of_early hdenied hearly]
        exact Or.inl ⟨⟨425, rfl⟩, rfl⟩
      · refine Or.inr ?_
        show (Http3.proxyRequest s v).answer = _ ∧ (Http3.proxyRequest s v).contacts = _
        rw [Http3.proxyRequest_of_static hdenied hearly h]
        exact ⟨rfl, rfl⟩

/-- The answer is that of the upstream at an address, straight, through plugins or the cache, or an error on the way. -/
def Answer.Proxied (address : Str) : Answer → Prop
  | .forwarded request => request.target.address = address
  | .plugins _ _ _ target => target.address = address
  | .cached _ _ => True
  | .noTarget => True
  | .failed => True
  | .panicked _ => True
  | .refused _ => False
  | .file _ => False

/-- **An app site's requests never reach its upstream**, though its route names it: whoever runs a loaded configuration
refuses every request for the site's host or answers it from the root of the first enabled site of that host. -/
theorem app_site_never_proxied (parseMain : Str → Except Str Config) (parseSite : Str → Except Str SiteConfig)
    (files : ConfigFiles) {c : Config} (h : Config.load parseMain parseSite files = .ok c) :
    ∃ main sites, Config.loadMain parseMain files = .ok main ∧ sitesOf parseSite files = .ok sites ∧
      ∀ app ∈ sites, ∀ upstream, app.enabled = true → app.kind = .app → app.app = some upstream →
      (∃ rc ∈ c.routes, app.toRoute = some rc ∧ rc.upstream = [upstream]) ∧
      ∀ s : Server, s.proxy.router.configured = buildRouter c →
      ∀ listener v, app.answers (s.hostOf listener v.req) = true →
        ¬ (s.handle listener v).answer.Proxied upstream ∧
        ∃ site, sites.find? (fun site => site.answers (s.hostOf listener v.req)) = some site ∧
          ((s.handle listener v).Refused ∨ (s.handle listener v).FromRoot s site.root v.req.uri.path) := by
  obtain ⟨main, sites, hmain, -, hsites, rfl⟩ := load_eq_merge h
  refine ⟨main, sites, hmain, hsites, fun app happ upstream hon hkind hup => ⟨?_, fun s hrunning listener v hhost => ?_⟩⟩
  · obtain ⟨rc, hrc⟩ := toRoute_of_enabled hon
    refine ⟨rc, List.mem_append_left _ (List.mem_filterMap.2 ⟨app, happ, hrc⟩), hrc, ?_⟩
    rw [(toRoute_eq_some hrc).2]
    simp [SiteConfig.upstream, hkind, hup]
  obtain ⟨site, hfind⟩ : ∃ site, sites.find? (fun site => site.answers (s.hostOf listener v.req)) = some site :=
    Option.isSome_iff_exists.1 (List.find?_isSome.2 ⟨app, happ, hhost⟩)
  have hanswers : site.answers (s.hostOf listener v.req) = true := by simpa using List.find?_some hfind
  obtain ⟨rc, hrc⟩ := toRoute_of_enabled (enabled_of_answers hanswers)
  have hmatched : matchedConfig (main.merge sites) (s.hostOf listener v.req) v.req.uri.path = some rc := by
    rw [matchedConfig_merge, hfind, Option.bind_some, hrc, Option.some_or]
  have hserved := handle_of_serveStatic (serveStatic_of_site hrunning hrc hmatched)
  refine ⟨?_, site, hfind, hserved⟩
  rcases hserved with ⟨⟨status, hrefused⟩, -⟩ | ⟨hfile, -⟩
  · rw [hrefused]
    exact id
  · rw [hfile]
    exact id

/-! ## An app site's page -/

/-- A server without gates or a cache, which has one file. -/
def runningServer (router : Router) : Server :=
  ⟨⟨[], []⟩, none, none, { oneUpstream with router := router }, none, none, false,
    fun root path => if root = "/var/www/app".toList ∧ path = ['/'] then some [60, 112, 62] else none, fun _ => true⟩

/-- A client's visit after its handshake; no origin answers. -/
def visitOf (req : Request) : Visit :=
  ⟨.v4 (BitVec.ofNat 32 0x7F000001), req, .finished, true, 0, firstSecond, firstSecond, Env.kept, fun _ => none⟩

/-- A request for a host in its `Host` header and its URI. -/
def getPage (host : Str) : Request :=
  { getWithHost host ['/'] with uri := ⟨some host, some ['/']⟩ }

theorem app_site_load_never_proxied :
    ∃ c, Config.load parseMainText parseSiteText (filesWithSite "app.example.com" appSiteText) = .ok c ∧
      ∃ main sites, Config.loadMain parseMainText (filesWithSite "app.example.com" appSiteText) = .ok main ∧
        sitesOf parseSiteText (filesWithSite "app.example.com" appSiteText) = .ok sites ∧
        ∀ app ∈ sites, ∀ upstream, app.enabled = true → app.kind = .app → app.app = some upstream →
        (∃ rc ∈ c.routes, app.toRoute = some rc ∧ rc.upstream = [upstream]) ∧
        ∀ s : Server, s.proxy.router.configured = buildRouter c →
        ∀ listener v, app.answers (s.hostOf listener v.req) = true →
          ¬ (s.handle listener v).answer.Proxied upstream ∧
          ∃ site, sites.find? (fun site => site.answers (s.hostOf listener v.req)) = some site ∧
            ((s.handle listener v).Refused ∨ (s.handle listener v).FromRoot s site.root v.req.uri.path) :=
  ⟨_, rfl, app_site_never_proxied parseMainText parseSiteText (filesWithSite "app.example.com" appSiteText) rfl⟩

/-- **A page of an app site is answered from its document root**, on either listener. -/
theorem app_site_page_from_root :
    ∃ c, Config.load parseMainText parseSiteText (filesWithSite "app.example.com" appSiteText) = .ok c ∧
      ∀ listener,
        ((runningServer (buildRouter c)).handle listener (visitOf (getPage "app.example.com".toList))).answer =
          .file (some [60, 112, 62]) :=
  ⟨_, rfl, fun listener => by cases listener <;> rfl⟩

end Zaphyl
