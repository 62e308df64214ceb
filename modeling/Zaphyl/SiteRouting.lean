import Zaphyl.Router
import Zaphyl.Sites
/-!
# SiteRouting — what a merged configuration routes

`build_router` makes one route per configured one and numbers them in order.  A site's route matches by host alone and
stands before the main file's, so the first enabled site of a request's host gets the request and any other request is
routed as by the main file alone (`merged_routing`).
-/
namespace Zaphyl

open Text (eqIgnoreAsciiCase)

/-- The target of an upstream address; the server name is the address up to its last colon. -/
def buildTarget (route : RouteConfig) (address : Str) : Target :=
  let sni := ((Text.rsplitOnce ':' address).map Prod.fst).getD []
  (Target.new address route.tls sni).withH2 route.grpc

def buildRoute (route : RouteConfig) (index : Nat) : Route :=
  let matched := (Route.new route.host route.path (route.upstream.map (buildTarget route))).withId index
  let built := (matched.withStripPrefix route.stripPrefix).withHeaders route.requestHeaders route.responseHeaders
  match route.root with
  | some root => built.withStatic root
  | none => built

/-- `build_router`: the routes of the configuration, numbered in order. -/
def buildRouter (config : Config) : Router := ⟨config.routes.zipIdx.map (fun p => buildRoute p.1 p.2)⟩

/-- The configured route that the matched route was built from. -/
def matchedConfig (config : Config) (host : Option Str) (path : Str) : Option RouteConfig :=
  ((buildRouter config).matchRoute host path).bind (fun route => config.routes[route.id]?)

/-! ## A route matches as it is configured -/

@[simp] theorem id_buildRoute (route : RouteConfig) (index : Nat) : (buildRoute route index).id = index := by
  unfold buildRoute
  cases route.root <;> rfl

theorem withId_buildRoute (route : RouteConfig) (index k : Nat) :
    (buildRoute route index).withId k = buildRoute route k := by
  unfold buildRoute
  cases route.root <;> rfl

def RouteConfig.accepts (route : RouteConfig) (host : Option Str) (path : Str) : Bool :=
  (buildRoute route 0).matches host path

theorem matches_buildRoute (route : RouteConfig) (index : Nat) (host : Option Str) (path : Str) :
    (buildRoute route index).matches host path = route.accepts host path := by
  unfold RouteConfig.accepts buildRoute
  cases route.root <;> rfl

theorem map_fst_find?_zipIdx {α : Type} (p : α → Bool) (l : List α) :
    (l.zipIdx.find? (fun x => p x.1)).map Prod.fst = l.find? p := by
  have h := List.find?_map (p := p) (f := Prod.fst) (l := l.zipIdx)
  rw [List.zipIdx_map_fst] at h
  exact h.symm

theorem matchRoute_buildRouter (config : Config) (host : Option Str) (path : Str) :
    (buildRouter config).matchRoute host path =
      (config.routes.zipIdx.find? (fun x => x.1.accepts host path)).map (fun x => buildRoute x.1 x.2) := by
  unfold Router.matchRoute buildRouter
  rw [List.find?_map]
  congr 2
  funext x
  exact matches_buildRoute x.1 x.2 host path

/-- **The matched route is built from the first configured route that accepts the request.** -/
theorem matchedConfig_eq_find? (config : Config) (host : Option Str) (path : Str) :
    matchedConfig config host path = config.routes.find? (fun r => r.accepts host path) := by
  unfold matchedConfig
  rw [matchRoute_buildRouter, ← map_fst_find?_zipIdx (fun r : RouteConfig => r.accepts host path)]
  cases hfind : config.routes.zipIdx.find? (fun x => x.1.accepts host path) with
  | none => rfl
  | some x =>
    have hget : config.routes[x.2]? = some x.1 := List.mem_zipIdx_iff_getElem?.1 (List.mem_of_find?_eq_some hfind)
    rw [Option.map_some, Option.bind_some, id_buildRoute, hget]
    rfl

theorem matchRoute_withId (config : Config) (host : Option Str) (path : Str) :
    ((buildRouter config).matchRoute host path).map (fun r => r.withId 0) =
      (matchedConfig config host path).map (fun r => buildRoute r 0) := by
  rw [matchRoute_buildRouter, matchedConfig_eq_find?,
    ← map_fst_find?_zipIdx (fun r : RouteConfig => r.accepts host path), Option.map_map, Option.map_map]
  congr 1
  funext x
  exact withId_buildRoute x.1 x.2 0

/-! ## Sites and hosts -/

/-- An enabled site whose domain is the request's host, case aside. -/
def SiteConfig.answers (host : Option Str) (s : SiteConfig) : Bool :=
  s.enabled && host.any (fun h => eqIgnoreAsciiCase h s.domain)

theorem enabled_of_answers {s : SiteConfig} {host : Option Str} (h : s.answers host = true) : s.enabled = true := by
  unfold SiteConfig.answers at h
  exact (Bool.and_eq_true_iff.1 h).1

theorem accepts_toRoute {s : SiteConfig} {r : RouteConfig} (h : s.toRoute = some r) (host : Option Str) (path : Str) :
    r.accepts host path = s.answers host := by
  obtain ⟨he, rfl⟩ := toRoute_eq_some h
  unfold SiteConfig.answers
  rw [he, Bool.true_and]
  show (host.any (fun h => eqIgnoreAsciiCase h s.domain) && true) = _
  rw [Bool.and_true]

/-- Among the site routes, the first that accepts a request is that of the first site that answers its host. -/
theorem find?_siteRoutes (sites : List SiteConfig) (host : Option Str) (path : Str) :
    (sites.filterMap SiteConfig.toRoute).find? (fun r => r.accepts host path) =
      (sites.find? (fun s => s.answers host)).bind SiteConfig.toRoute := by
  induction sites with
  | nil => rfl
  | cons s sites ih =>
    cases hr : s.toRoute with
    | none =>
      have hoff : s.answers host = false := by
        unfold SiteConfig.answers
        cases he : s.enabled with
        | false => rfl
        | true =>
          obtain ⟨r, hsome⟩ := toRoute_of_enabled he
          rw [hr] at hsome
          cases hsome
      rw [List.filterMap_cons_none hr, List.find?_cons, hoff, ih]
    | some r =>
      rw [List.filterMap_cons_some hr, List.find?_cons, List.find?_cons, accepts_toRoute hr]
      cases s.answers host with
      | true => exact hr.symm
      | false => exact ih

/-- **A merge routes a site's host to the site and any other host as before.** -/
theorem matchedConfig_merge (main : Config) (sites : List SiteConfig) (host : Option Str) (path : Str) :
    matchedConfig (main.merge sites) host path =
      ((sites.find? (fun s => s.answers host)).bind SiteConfig.toRoute).or (matchedConfig main host path) := by
  rw [matchedConfig_eq_find?, matchedConfig_eq_find?, ← find?_siteRoutes sites host path]
  exact List.find?_append

/-- The sites of the directory's `*.toml` entries, in the order of the entries' names. -/
def ConfigFiles.SitesInOrder (parse : Str → Except Str SiteConfig) (files : ConfigFiles) (sites : List SiteConfig) :
    Prop :=
  ∃ entries : List (Str × ConfigFile), entries.Perm ((files.sites.getD []).filter (fun e => isToml e.1)) ∧
    entries.Pairwise (fun e e' => e.1 ≤ e'.1) ∧ List.Forall₂ (fun e site => readSite parse e.2 = .ok site) entries sites

theorem sitesInOrder_of_sitesOf {parse : Str → Except Str SiteConfig} {files : ConfigFiles} {sites : List SiteConfig}
    (h : sitesOf parse files = .ok sites) : files.SitesInOrder parse sites := by
  have hread := Checks.forall₂_of_mapM h
  rw [ConfigFiles.siteFiles, List.forall₂_map_left_iff] at hread
  exact ⟨_, List.perm_insertionSort _ _, List.pairwise_insertionSort _ _, hread⟩

/-- **Adding sites changes nobody else's routing, and a site wins for its own host.**  In a loaded configuration the
first enabled site of the request's host in file order gets the request; where there is none, the request gets the route
that the main file alone gives it. -/
theorem merged_routing (parseMain : Str → Except Str Config) (parseSite : Str → Except Str SiteConfig)
    (files : ConfigFiles) {c : Config} (h : Config.load parseMain parseSite files = .ok c) :
    ∃ main sites, Config.loadMain parseMain files = .ok main ∧ files.SitesInOrder parseSite sites ∧
      ∀ host path, match sites.find? (fun s => s.answers host) with
        | none => matchedConfig c host path = matchedConfig main host path ∧
            ((buildRouter c).matchRoute host path).map (fun r => r.withId 0) =
              ((buildRouter main).matchRoute host path).map (fun r => r.withId 0)
        | some s => ∃ route, s.toRoute = some route ∧ matchedConfig c host path = some route ∧
            ((buildRouter c).matchRoute host path).map (fun r => r.withId 0) = some (buildRoute route 0) := by
  obtain ⟨main, sites, hmain, -, hsites, rfl⟩ := load_eq_merge h
  refine ⟨main, sites, hmain, sitesInOrder_of_sitesOf hsites, fun host path => ?_⟩
  have hmerge := matchedConfig_merge main sites host path
  cases hfind : sites.find? (fun s => s.answers host) with
  | none =>
    rw [hfind] at hmerge
    have hsame : matchedConfig (main.merge sites) host path = matchedConfig main host path := hmerge
    refine ⟨hsame, ?_⟩
    rw [matchRoute_withId, matchRoute_withId, hsame]
  | some s =>
    have hanswers : s.answers host = true := List.find?_some hfind
    obtain ⟨route, hroute⟩ := toRoute_of_enabled (enabled_of_answers hanswers)
    have hsome : matchedConfig (main.merge sites) host path = some route := by
      rw [hmerge, hfind, Option.bind_some, hroute, Option.some_or]
    refine ⟨route, hroute, hsome, ?_⟩
    rw [matchRoute_withId, hsome]
    rfl

theorem static_site_routing :
    ∃ c, Config.load parseMainText parseSiteText (filesWithSite "blog.example.com" staticSiteText) = .ok c ∧
      ∃ main sites, Config.loadMain parseMainText (filesWithSite "blog.example.com" staticSiteText) = .ok main ∧
        (filesWithSite "blog.example.com" staticSiteText).SitesInOrder parseSiteText sites ∧
        ∀ host path, match sites.find? (fun s => s.answers host) with
          | none => matchedConfig c host path = matchedConfig main host path ∧
              ((buildRouter c).matchRoute host path).map (fun r => r.withId 0) =
                ((buildRouter main).matchRoute host path).map (fun r => r.withId 0)
          | some s => ∃ route, s.toRoute = some route ∧ matchedConfig c host path = some route ∧
              ((buildRouter c).matchRoute host path).map (fun r => r.withId 0) = some (buildRoute route 0) :=
  ⟨_, rfl, merged_routing parseMainText parseSiteText (filesWithSite "blog.example.com" staticSiteText) rfl⟩

end Zaphyl
