import Mathlib.Data.List.Sort
import Zaphyl.Config
/-!
# Sites — site files merged into the configuration

`load` validates the main file, then reads the site files in the order of their names, puts the routes of the enabled
sites before the main file's and adds their domains to ACME.  Nothing is validated after the merge, so the loaded
configuration is valid exactly when every site keeps the rules (`load_valid_iff`).
-/
namespace Zaphyl

open Text (trim)

inductive SiteKind
  | «static»
  | php
  | app
deriving DecidableEq

inductive SiteTls
  | auto
  | off
deriving DecidableEq

structure SiteConfig where
  domain : Str
  root : Str
  kind : SiteKind
  tls : SiteTls
  app : Option Str
  phpFpm : Option Str
  enabled : Bool
deriving DecidableEq

namespace SiteConfig

def fromToml (parse : Str → Except Str SiteConfig) (input : Str) : Except ConfigError SiteConfig :=
  (parse input).mapError .toml

def upstream (s : SiteConfig) : List Str :=
  match s.kind, s.app with
  | .app, some app => [app]
  | _, _ => []

/-- The route this site contributes, or `none` when disabled. -/
def toRoute (s : SiteConfig) : Option RouteConfig :=
  if !s.enabled then none
  else some ⟨some s.domain, none, s.upstream, some s.root, false, false, [], [], false, []⟩

def tlsDomain (s : SiteConfig) : Option Str :=
  if !s.enabled then none
  else
    match s.tls with
    | .auto => some s.domain
    | .off => none

end SiteConfig

structure ConfigFile where
  path : Str
  text : Except Str Str

/-- The main file, and the entries of the directory `sites` by name when it can be read. -/
structure ConfigFiles where
  main : ConfigFile
  sites : Option (List (Str × ConfigFile))

namespace ConfigFiles

def isToml (name : Str) : Bool :=
  match Text.rsplitOnce '.' name with
  | some (stem, extension) => stem ≠ [] && extension == "toml".toList
  | none => false

/-- The site files, sorted by name. -/
def siteFiles (files : ConfigFiles) : List ConfigFile :=
  (((files.sites.getD []).filter (fun f => isToml f.1)).insertionSort (fun f g => f.1 ≤ g.1)).map Prod.snd

end ConfigFiles

def ConfigFile.read (f : ConfigFile) : Except ConfigError Str :=
  f.text.mapError (fun e => .invalid ("cannot read ".toList ++ f.path ++ ": ".toList ++ e))

def readSite (parse : Str → Except Str SiteConfig) (f : ConfigFile) : Except ConfigError SiteConfig := do
  SiteConfig.fromToml parse (← f.read)

/-- The loop over the site files: the routes and the ACME domains so far. -/
def loadSites (parse : Str → Except Str SiteConfig) :
    List ConfigFile → List RouteConfig → List Str → Except ConfigError (List RouteConfig × List Str)
  | [], routes, domains => .ok (routes, domains)
  | f :: fs, routes, domains => do
    let site ← readSite parse f
    loadSites parse fs (routes ++ site.toRoute.toList) (domains ++ site.tlsDomain.toList)

def AcmeConfig.addDomains (a : AcmeConfig) (domains : List Str) : AcmeConfig :=
  { a with domains := domains.foldl (fun listed d => if d ∈ listed then listed else listed ++ [d]) a.domains }

/-- `Config::load`: the parameters are `toml::from_str` at the two types. -/
def Config.load (parseMain : Str → Except Str Config) (parseSite : Str → Except Str SiteConfig)
    (files : ConfigFiles) : Except ConfigError Config := do
  let text ← files.main.read
  let config ← Config.fromToml parseMain text
  let (siteRoutes, acmeDomains) ← loadSites parseSite files.siteFiles [] []
  return { config with
    routes := siteRoutes ++ config.routes
    acme := config.acme.map (fun acme => acme.addDomains acmeDomains) }

/-! ## What is loaded -/

/-- The main file alone, parsed and validated. -/
def Config.loadMain (parseMain : Str → Except Str Config) (files : ConfigFiles) : Except ConfigError Config := do
  Config.fromToml parseMain (← files.main.read)

def sitesOf (parseSite : Str → Except Str SiteConfig) (files : ConfigFiles) : Except ConfigError (List SiteConfig) :=
  files.siteFiles.mapM (readSite parseSite)

def Config.merge (main : Config) (sites : List SiteConfig) : Config :=
  { main with
    routes := sites.filterMap SiteConfig.toRoute ++ main.routes
    acme := main.acme.map (fun acme => acme.addDomains (sites.filterMap SiteConfig.tlsDomain)) }

theorem loadSites_eq_ok {parse : Str → Except Str SiteConfig} :
    ∀ {fs : List ConfigFile} {routes : List RouteConfig} {domains : List Str} {out : List RouteConfig × List Str},
    loadSites parse fs routes domains = .ok out →
    ∃ sites, fs.mapM (readSite parse) = .ok sites ∧
      out = (routes ++ sites.filterMap SiteConfig.toRoute, domains ++ sites.filterMap SiteConfig.tlsDomain)
  | [], routes, domains, out, h => by
    cases h
    exact ⟨[], rfl, by simp⟩
  | f :: fs, routes, domains, out, h => by
    obtain ⟨site, hread, hrest⟩ := Checks.bind_eq_ok.1 h
    obtain ⟨sites, hsites, hout⟩ := loadSites_eq_ok hrest
    refine ⟨site :: sites, ?_, ?_⟩
    · rw [List.mapM_cons, hread]
      show (fs.mapM (readSite parse) >>= fun ss => pure (site :: ss)) = _
      rw [hsites]
      rfl
    · rw [hout, List.append_assoc, List.append_assoc, List.filterMap_cons, List.filterMap_cons]
      cases site.toRoute <;> cases site.tlsDomain <;> rfl

/-- **A loaded configuration is the valid main file's with the sites merged in.** -/
theorem load_eq_merge {parseMain : Str → Except Str Config} {parseSite : Str → Except Str SiteConfig}
    {files : ConfigFiles} {c : Config} (h : Config.load parseMain parseSite files = .ok c) :
    ∃ main sites, Config.loadMain parseMain files = .ok main ∧ main.Valid ∧ sitesOf parseSite files = .ok sites ∧
      c = main.merge sites := by
  obtain ⟨text, htext, h⟩ := Checks.bind_eq_ok.1 h
  obtain ⟨main, hmain, h⟩ := Checks.bind_eq_ok.1 h
  obtain ⟨out, hsites, h⟩ := Checks.bind_eq_ok.1 h
  obtain ⟨sites, hread, hout⟩ := loadSites_eq_ok hsites
  refine ⟨main, sites, ?_, (fromToml_eq_ok hmain).2, hread, ?_⟩
  · exact Checks.bind_eq_ok.2 ⟨text, htext, hmain⟩
  · subst hout
    cases h
    rfl

/-! ## Which sites keep the rules -/

theorem toRoute_eq_some {s : SiteConfig} {r : RouteConfig} (h : s.toRoute = some r) :
    s.enabled = true ∧ r = ⟨some s.domain, none, s.upstream, some s.root, false, false, [], [], false, []⟩ := by
  unfold SiteConfig.toRoute at h
  cases he : s.enabled with
  | false =>
    rw [he] at h
    cases h
  | true =>
    rw [he] at h
    exact ⟨rfl, (Option.some.inj h).symm⟩

theorem toRoute_of_enabled {s : SiteConfig} (h : s.enabled = true) : ∃ r, s.toRoute = some r := by
  unfold SiteConfig.toRoute
  rw [h]
  exact ⟨_, rfl⟩

theorem tlsDomain_eq_some {s : SiteConfig} {d : Str} :
    s.tlsDomain = some d ↔ s.enabled = true ∧ s.tls = .auto ∧ s.domain = d := by
  unfold SiteConfig.tlsDomain
  cases s.enabled <;> cases s.tls <;> simp

theorem upstream_eq_nil_iff (s : SiteConfig) : s.upstream = [] ↔ ¬ (s.kind = .app ∧ s.app ≠ none) := by
  unfold SiteConfig.upstream
  cases s.kind <;> cases s.app <;> simp

theorem valid_toRoute_iff {s : SiteConfig} {r : RouteConfig} (h : s.toRoute = some r) :
    r.Valid ↔ s.upstream = [] := by
  obtain ⟨-, rfl⟩ := toRoute_eq_some h
  constructor
  · exact fun hr => hr.exactlyOne.2 rfl
  · intro hnil
    refine ⟨by simp [hnil], ?_, ?_, ?_⟩
    · simp [hnil]
    · simp
    · simp

theorem mem_foldl_addDomain (ds : List Str) : ∀ (listed : List Str) (x : Str),
    x ∈ ds.foldl (fun listed d => if d ∈ listed then listed else listed ++ [d]) listed ↔ x ∈ listed ∨ x ∈ ds := by
  induction ds with
  | nil => simp
  | cons d ds ih =>
    intro listed x
    rw [List.foldl_cons, ih]
    by_cases hd : d ∈ listed
    · rw [if_pos hd, List.mem_cons]
      constructor
      · exact fun h => h.imp_right Or.inr
      · rintro (h | rfl | h)
        · exact Or.inl h
        · exact Or.inl hd
        · exact Or.inr h
    · rw [if_neg hd, List.mem_append, List.mem_singleton, List.mem_cons, or_assoc]

theorem mem_addDomains {a : AcmeConfig} {ds : List Str} {x : Str} :
    x ∈ (a.addDomains ds).domains ↔ x ∈ a.domains ∨ x ∈ ds := mem_foldl_addDomain ds a.domains x

/-- The sites keep the rules: no enabled app site names its upstream, and with ACME on every enabled site with automatic
TLS has a domain. -/
def SitesKeepRules (main : Config) (sites : List SiteConfig) : Prop :=
  (∀ s ∈ sites, s.enabled = true → ¬ (s.kind = .app ∧ s.app ≠ none)) ∧
    (main.acme ≠ none → ∀ s ∈ sites, s.enabled = true → s.tls = .auto → trim s.domain ≠ [])

theorem merge_routes_valid_iff {main : Config} (hmain : main.Valid) (sites : List SiteConfig) :
    (∀ r ∈ (main.merge sites).routes, r.Valid) ↔
      ∀ s ∈ sites, s.enabled = true → ¬ (s.kind = .app ∧ s.app ≠ none) := by
  show (∀ r ∈ sites.filterMap SiteConfig.toRoute ++ main.routes, r.Valid) ↔ _
  constructor
  · intro h s hs he
    obtain ⟨r, hr⟩ := toRoute_of_enabled he
    have hmem : r ∈ sites.filterMap SiteConfig.toRoute := List.mem_filterMap.2 ⟨s, hs, hr⟩
    have hvalid := h r (List.mem_append_left _ hmem)
    rwa [valid_toRoute_iff hr, upstream_eq_nil_iff] at hvalid
  · intro h r hr
    rcases List.mem_append.1 hr with hr | hr
    · obtain ⟨s, hs, hr⟩ := List.mem_filterMap.1 hr
      rw [valid_toRoute_iff hr, upstream_eq_nil_iff]
      exact h s hs (toRoute_eq_some hr).1
    · exact hmain.routes r hr

theorem merge_acme_valid_iff {main : Config} (hmain : main.Valid) (sites : List SiteConfig) :
    (∀ a, (main.merge sites).acme = some a → a.Valid) ↔
      (main.acme ≠ none → ∀ s ∈ sites, s.enabled = true → s.tls = .auto → trim s.domain ≠ []) := by
  show (∀ a : AcmeConfig, main.acme.map (fun acme => acme.addDomains (sites.filterMap SiteConfig.tlsDomain)) = some a →
    a.Valid) ↔ _
  cases hacme : main.acme with
  | none => simp
  | some acme =>
    have hvalid := hmain.acme acme hacme
    have hdomain : ∀ {x : Str}, x ∈ sites.filterMap SiteConfig.tlsDomain ↔
        ∃ s ∈ sites, s.enabled = true ∧ s.tls = .auto ∧ s.domain = x := by
      intro x
      simp only [List.mem_filterMap, tlsDomain_eq_some]
    constructor
    · intro h _ s hs he ht
      have hnew := h _ (Option.map_some ..)
      exact hnew.domains _ (mem_addDomains.2 (Or.inr (hdomain.2 ⟨s, hs, he, ht, rfl⟩)))
    · intro h a ha
      rw [Option.map_some, Option.some.injEq] at ha
      subst ha
      refine ⟨?_, fun d hd => ?_, hvalid.email, hvalid.renewBeforeDays, hvalid.checkIntervalSeconds⟩
      · obtain ⟨d, hd⟩ := List.exists_mem_of_ne_nil _ hvalid.domains_ne
        exact List.ne_nil_of_mem (mem_addDomains.2 (Or.inl hd))
      · rcases mem_addDomains.1 hd with hd | hd
        · exact hvalid.domains d hd
        · obtain ⟨s, hs, he, ht, rfl⟩ := hdomain.1 hd
          exact h (by simp) s hs he ht

/-- **A merge is valid exactly when its sites keep the rules.** -/
theorem merge_valid_iff {main : Config} (hmain : main.Valid) (sites : List SiteConfig) :
    (main.merge sites).Valid ↔ SitesKeepRules main sites := by
  unfold SitesKeepRules
  rw [← merge_routes_valid_iff hmain, ← merge_acme_valid_iff hmain]
  have hacme : (main.merge sites).acme = none ↔ main.acme = none := Option.map_eq_none_iff
  constructor
  · exact fun h => ⟨h.routes, h.acme⟩
  · rintro ⟨hroutes, hdomains⟩
    refine ⟨?_, hroutes, hmain.tls, ?_, hdomains, hmain.rateLimit, hmain.healthCheck, hmain.limits, ?_, ?_,
      hmain.compression, hmain.cache⟩
    · exact List.append_ne_nil_of_right_ne_nil _ hmain.routes_ne
    · exact hmain.exclusive.imp_right hacme.2
    · exact fun h => (hmain.http3 h).imp_right (fun hn hm => hn (hacme.1 hm))
    · exact fun h => (hmain.http h).imp_right (fun hn hm => hn (hacme.1 hm))

/-- **A loaded configuration passes validation exactly when the sites keep the rules.** -/
theorem load_valid_iff (parseMain : Str → Except Str Config) (parseSite : Str → Except Str SiteConfig)
    (files : ConfigFiles) {c : Config} (h : Config.load parseMain parseSite files = .ok c) :
    ∃ main sites, Config.loadMain parseMain files = .ok main ∧ sitesOf parseSite files = .ok sites ∧
      (c.validate = .ok () ↔ SitesKeepRules main sites) := by
  obtain ⟨main, sites, hmain, hvalid, hsites, rfl⟩ := load_eq_merge h
  refine ⟨main, sites, hmain, hsites, ?_⟩
  rw [validate_eq_ok_iff, merge_valid_iff hvalid]

/-! ## An app site -/

def mainText : Str := "listen = \"0.0.0.0:80\"\n\n[[route]]\nroot = \"/usr/share/zaphyl/html\"\n".toList

def appSiteText : Str :=
  "domain = \"app.example.com\"\nroot = \"/var/www/app\"\ntype = \"app\"\napp = \"127.0.0.1:8000\"\n".toList

def staticSiteText : Str := "domain = \"blog.example.com\"\nroot = \"/var/www/blog\"\ntype = \"static\"\n".toList

def parseMainText (text : Str) : Except Str Config :=
  if text = mainText then
    .ok ⟨none, none, none, none, none, none, none, none, none,
      [⟨none, none, [], some "/usr/share/zaphyl/html".toList, false, false, [], [], false, []⟩]⟩
  else .error "expected the main file".toList

def parseSiteText (text : Str) : Except Str SiteConfig :=
  if text = appSiteText then
    .ok ⟨"app.example.com".toList, "/var/www/app".toList, .app, .auto, some "127.0.0.1:8000".toList, none, true⟩
  else if text = staticSiteText then
    .ok ⟨"blog.example.com".toList, "/var/www/blog".toList, .static, .auto, none, none, true⟩
  else .error "expected a site file".toList

def filesWithSite (name : String) (text : Str) : ConfigFiles :=
  ⟨⟨"/etc/zaphyl.toml".toList, .ok mainText⟩,
    some [((name ++ ".toml").toList, ⟨("/etc/sites/" ++ name ++ ".toml").toList, .ok text⟩)]⟩

theorem static_site_load_valid :
    ∃ c, Config.load parseMainText parseSiteText (filesWithSite "blog.example.com" staticSiteText) = .ok c ∧
      ∃ main sites, Config.loadMain parseMainText (filesWithSite "blog.example.com" staticSiteText) = .ok main ∧
        sitesOf parseSiteText (filesWithSite "blog.example.com" staticSiteText) = .ok sites ∧
        (c.validate = .ok () ↔ SitesKeepRules main sites) :=
  ⟨_, rfl, load_valid_iff parseMainText parseSiteText (filesWithSite "blog.example.com" staticSiteText) rfl⟩

/-- **An app site is loaded as a route with an upstream and a root.** -/
theorem app_site_load_invalid :
    ∃ c, Config.load parseMainText parseSiteText (filesWithSite "app.example.com" appSiteText) = .ok c ∧
      c.validate = .error (.invalid "route 0: cannot set both upstream and root".toList) :=
  ⟨_, rfl, by decide⟩

end Zaphyl
