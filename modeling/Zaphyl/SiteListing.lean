import Zaphyl.SiteRegistry
/-!
# SiteListing — what is loaded and listed of a sites directory

A load and `site list` take the names of the directory in whatever order the system gives them, keep those of site files
and sort them.  After any run of site commands they see the sites that the commands have left, and no other
(`loaded_after_commands`).
-/
namespace Zaphyl

open UnixPath

/-! ## Listing a directory -/

/-- What the answers of a load depend on besides the files: what may be read, and the texts of the system's errors. -/
structure LoadEnv where
  rights : Rights
  describe : Bytes → Str

namespace LoadEnv

variable (env : LoadEnv)

/-- A file as `std::fs::read_to_string` gives it. -/
def configFile (s : FileStore) (path : Bytes) : ConfigFile :=
  ⟨Utf8.lossy path,
    match (s.read env.rights path).bind readToString with
    | some text => .ok text
    | none => .error (env.describe path)⟩

/-- The files of a load or a list, the names of the sites directory being given when it can be read. -/
def configFiles (s : FileStore) (main sitesDir : Bytes) (listing : Option (List Bytes)) : ConfigFiles where
  main := env.configFile s main
  sites := listing.map (fun names => names.map (fun name =>
    (Utf8.lossy name, env.configFile s (joinPath sitesDir name))))

end LoadEnv

/-- The sites directory of a main file: `main.parent().unwrap_or(".").join("sites")`. -/
def sitesOfMain (parent : Option Bytes) : Bytes := joinPath (parent.getD [dot]) (Utf8.encode "sites".toList)

/-- The line that `site list` prints of a site. -/
def siteLine (site : SiteConfig) : Str :=
  site.domain ++ " [".toList ++ site.kind.text ++ "] (".toList ++
    (if site.enabled then "enabled".toList else "DISABLED".toList) ++ ")".toList

/-- `run_site_list`: how it exits, and the lines that it prints.  A file that is no site is skipped. -/
def runSiteList (parse : Str → Except Str SiteConfig) (files : ConfigFiles) : ExitCode × List Str :=
  match files.sites with
  | none => (.failure, [])
  | some _ =>
    (.success, files.siteFiles.filterMap (fun f =>
      match readSite parse f with
      | .ok site => some (siteLine site)
      | .error _ => none))

/-! ## Loading the sites that are read -/

theorem loadSites_of_mapM {parse : Str → Except Str SiteConfig} :
    ∀ {fs : List ConfigFile} {sites : List SiteConfig} (routes : List RouteConfig) (domains : List Str),
    fs.mapM (readSite parse) = .ok sites → loadSites parse fs routes domains =
      .ok (routes ++ sites.filterMap SiteConfig.toRoute, domains ++ sites.filterMap SiteConfig.tlsDomain)
  | [], sites, routes, domains, h => by
    rw [List.mapM_nil] at h
    cases h
    rw [List.filterMap_nil, List.filterMap_nil, List.append_nil, List.append_nil]
    rfl
  | f :: fs, sites, routes, domains, h => by
    rw [List.mapM_cons] at h
    obtain ⟨site, hread, hrest⟩ := Checks.bind_eq_ok.1 h
    obtain ⟨rest, hmapped, hsites⟩ := Checks.bind_eq_ok.1 hrest
    cases hsites
    rw [loadSites, hread]
    show loadSites parse fs _ _ = _
    rw [loadSites_of_mapM _ _ hmapped, List.filterMap_cons, List.filterMap_cons, List.append_assoc, List.append_assoc]
    cases site.toRoute <;> cases site.tlsDomain <;> rfl

/-- **Where every site file is read, a load is the main file's with the sites merged in.** -/
theorem load_of_sitesOf {parseMain : Str → Except Str Config} {parseSite : Str → Except Str SiteConfig}
    {files : ConfigFiles} {sites : List SiteConfig} (h : sitesOf parseSite files = .ok sites) :
    Config.load parseMain parseSite files =
      (Config.loadMain parseMain files).map (fun main => main.merge sites) := by
  unfold Config.load Config.loadMain
  cases files.main.read with
  | error e => rfl
  | ok text =>
    show (Config.fromToml parseMain text >>= fun config => _) = (Config.fromToml parseMain text).map _
    cases Config.fromToml parseMain text with
    | error e => rfl
    | ok main =>
      show (loadSites parseSite files.siteFiles [] [] >>= fun p => _) = _
      rw [loadSites_of_mapM [] [] h]
      rfl

theorem runSiteList_of_sitesOf {parse : Str → Except Str SiteConfig} {files : ConfigFiles} {sites : List SiteConfig}
    (hlisted : files.sites ≠ none) (h : sitesOf parse files = .ok sites) :
    runSiteList parse files = (.success, sites.map siteLine) := by
  have hlines : ∀ {fs : List ConfigFile} {sites : List SiteConfig}, fs.mapM (readSite parse) = .ok sites →
      fs.filterMap (fun f =>
        match readSite parse f with
        | .ok site => some (siteLine site)
        | .error _ => none) = sites.map siteLine := by
    intro fs
    induction fs with
    | nil =>
      intro sites h
      cases h
      rfl
    | cons f fs ih =>
      intro sites h
      rw [List.mapM_cons] at h
      obtain ⟨site, hread, hrest⟩ := Checks.bind_eq_ok.1 h
      obtain ⟨rest, hmapped, hsites⟩ := Checks.bind_eq_ok.1 hrest
      cases hsites
      rw [List.filterMap_cons, hread, List.map_cons, ih hmapped]
  obtain ⟨listed, hsome⟩ := Option.ne_none_iff_exists'.1 hlisted
  unfold runSiteList
  rw [hsome]
  show (ExitCode.success, _) = _
  rw [hlines h]

/-! ## The site files of a directory -/

theorem isToml_siteFileName {domain : Str} :
    ConfigFiles.isToml (Utf8.lossy (siteFileName domain)) = true ↔ domain ≠ [] := by
  have hcut : Text.rsplitOnce '.' (domain ++ ".toml".toList) = some (domain, "toml".toList) :=
    Text.rsplitOnce_append_cons domain (by decide)
  rw [siteFileName, Utf8.lossy_encode, ConfigFiles.isToml, hcut]
  simp

theorem zero_not_mem_siteFileName {domain : Str} (h : '\x00' ∉ domain) : 0 ∉ siteFileName domain := by
  have hzero : (0 : UInt8) ∈ Utf8.encode domain ↔ '\x00' ∈ domain :=
    Utf8.ascii_mem_encode (c := '\x00') (by decide) domain
  rw [siteFileName_eq, List.mem_append, hzero, not_or]
  exact ⟨h, by decide⟩

/-- No file of the directory has a site file's name but those of domains that can name one. -/
def SitesOnly (dir : List Bytes) (s : FileStore) : Prop :=
  ∀ name, ConfigFiles.isToml (Utf8.lossy name) = true → s.fileAt (dir ++ [name]) ≠ none →
    ∃ domain, DirectChild domain ∧ name = siteFileName domain

/-- What a load or a list needs of a sites directory: its names are given, its files can be read, and no directory has
a site file's name. -/
structure SitesReadable (s : FileStore) (rights : Rights) (sitesDir : Bytes) (dir names : List Bytes) : Prop where
  base : s.tree.base sitesDir = some dir
  path : FileStore.IsCString sitesDir
  lists : s.Lists dir names
  read : ∀ name ∈ names, rights.read (dir ++ [name]) = true
  files : ∀ name, ConfigFiles.isToml (Utf8.lossy name) = true → s.tree.node (dir ++ [name]) ≠ some .dir

section

variable {env : LoadEnv} {s : FileStore} {sitesDir path : Bytes} {dir names : List Bytes}

variable (env) in
/-- **The site files are those of the domains that have one**, in the order of their names. -/
theorem siteFiles_eq (hsites : SitesOnly dir s) (hread : SitesReadable s env.rights sitesDir dir names) (main : Bytes) :
    ∃ domains : List Str, domains.Nodup ∧
      domains.Pairwise (fun d d' => d ++ ".toml".toList ≤ d' ++ ".toml".toList) ∧
      (∀ d, d ∈ domains ↔ d ≠ [] ∧ siteFileName d ∈ names) ∧
      (env.configFiles s main sitesDir (some names)).siteFiles =
        domains.map (fun d => env.configFile s (siteFile sitesDir d)) := by
  let stem : Bytes → Str := fun name => (Utf8.lossy name).take ((Utf8.lossy name).length - 5)
  let kept := names.filter (fun name => ConfigFiles.isToml (Utf8.lossy name))
  let entry : Str → Str × ConfigFile := fun d => (d ++ ".toml".toList, env.configFile s (siteFile sitesDir d))
  have hstem : ∀ d, stem (siteFileName d) = d := by
    intro d
    show (Utf8.lossy (siteFileName d)).take ((Utf8.lossy (siteFileName d)).length - 5) = d
    rw [siteFileName, Utf8.lossy_encode, List.length_append]
    exact List.take_left' (Nat.add_sub_cancel _ _).symm
  have hkept : ∀ name ∈ kept, name = siteFileName (stem name) := by
    intro name hname
    obtain ⟨hmem, htoml⟩ := List.mem_filter.1 hname
    have hthere := (hread.lists.mem_iff name).1 hmem
    obtain ⟨d, -, rfl⟩ := hsites name htoml (FileStore.fileAt_ne_none hthere (hread.files name htoml))
    rw [hstem]
  have hentries : ((names.map (fun name => (Utf8.lossy name, env.configFile s (joinPath sitesDir name)))).filter
      (fun f => ConfigFiles.isToml f.1)) = (kept.map stem).map entry := by
    rw [List.filter_map, List.map_map]
    refine List.map_congr_left (fun name hname => ?_)
    show (Utf8.lossy name, env.configFile s (joinPath sitesDir name)) = entry (stem name)
    have hname' := hkept name hname
    generalize stem name = d at hname'
    rw [hname', siteFileName, Utf8.lossy_encode]
    rfl
  refine ⟨(kept.map stem).insertionSort (fun d d' => d ++ ".toml".toList ≤ d' ++ ".toml".toList), ?_, ?_, ?_, ?_⟩
  · rw [(List.perm_insertionSort _ _).nodup_iff]
    refine List.Nodup.map_on (fun a ha b hb hsame => ?_) (hread.lists.nodup.filter _)
    rw [hkept a ha, hkept b hb, hsame]
  · have htotal : Std.Total (fun d d' : Str => d ++ ".toml".toList ≤ d' ++ ".toml".toList) :=
      ⟨fun d d' => le_total _ _⟩
    have htrans : IsTrans Str (fun d d' => d ++ ".toml".toList ≤ d' ++ ".toml".toList) :=
      ⟨fun _ _ _ => le_trans⟩
    exact List.pairwise_insertionSort _ _
  · intro d
    rw [List.mem_insertionSort, List.mem_map]
    constructor
    · rintro ⟨name, hname, rfl⟩
      obtain ⟨hmem, htoml⟩ := List.mem_filter.1 hname
      rw [hkept name hname] at htoml
      rw [← hkept name hname]
      exact ⟨isToml_siteFileName.1 htoml, hmem⟩
    · rintro ⟨hne, hmem⟩
      exact ⟨siteFileName d, List.mem_filter.2 ⟨hmem, isToml_siteFileName.2 hne⟩, hstem d⟩
  · show (((names.map _).filter _).insertionSort _).map Prod.snd = _
    rw [hentries, ← List.map_insertionSort (fun d d' : Str => d ++ ".toml".toList ≤ d' ++ ".toml".toList)
      (fun f g : Str × ConfigFile => f.1 ≤ g.1) entry _ (fun _ _ _ _ => Iff.rfl), List.map_map]
    rfl

/-- What a load reads of a site's file is the registry's entry. -/
theorem readSite_of_entry (reading : SiteReading) (h : s.HoldsFiles path dir) (hsites : SitesOnly dir s)
    (hread : SitesReadable s env.rights sitesDir dir names) {domain : Str} (hne : domain ≠ [])
    (hmem : siteFileName domain ∈ names) {site : SiteConfig}
    (hentry : reading.registry dir s domain = some (.site site)) :
    readSite reading.parse (env.configFile s (siteFile sitesDir domain)) = .ok site := by
  have hholds : s.HoldsFiles sitesDir dir := ⟨hread.base, h.isDir, h.entries⟩
  have hthere := (hread.lists.mem_iff _).1 hmem
  have hname : IsName (siteFileName domain) := s.tree.isName hthere
  obtain ⟨⟨kind, bytes⟩, hfile, hbytes⟩ := Option.map_eq_some_iff.1 hentry
  have hkind : kind = .file := hholds.file_of_fileAt hfile
  rw [hkind] at hfile
  have hpath : siteFile sitesDir domain = push sitesDir (siteFileName domain) := joinPath_of_isName sitesDir hname
  have hstring : FileStore.IsCString (push sitesDir (siteFileName domain)) := by
    obtain ⟨d, hplain, hsame⟩ := hsites _ (isToml_siteFileName.2 hne) (by rw [hfile]; exact Option.some_ne_none _)
    have hzero : 0 ∉ siteFileName domain := by
      rw [SiteReading.siteFileName_injective hsame]
      exact zero_not_mem_siteFileName hplain.2
    exact FileStore.isCString_push hread.path hzero
  have hgiven := (hholds.read_push hname).2 ⟨hstring, hread.read _ hmem, hfile⟩
  unfold SiteReading.entry at hbytes
  cases htext : readToString bytes with
  | none =>
    rw [htext] at hbytes
    cases hbytes
  | some text =>
    rw [htext, Option.map_some] at hbytes
    have hconfig : env.configFile s (siteFile sitesDir domain) = ⟨Utf8.lossy (siteFile sitesDir domain), .ok text⟩ := by
      unfold LoadEnv.configFile
      rw [hpath, hgiven, Option.bind_some, htext]
    rw [hconfig]
    show SiteConfig.fromToml reading.parse text = .ok site
    cases hsite : SiteConfig.fromToml reading.parse text with
    | ok site' =>
      rw [hsite] at hbytes
      cases hbytes
      rfl
    | error e =>
      rw [hsite] at hbytes
      cases hbytes

end

/-! ## The registry in order -/

/-- The sites of a registry, in the order of their files' names. -/
structure Registry.Ordered (r : Registry) (domains : List Str) (sites : List SiteConfig) : Prop where
  nodup : domains.Nodup
  sorted : domains.Pairwise (fun d d' => d ++ ".toml".toList ≤ d' ++ ".toml".toList)
  mem_iff : ∀ d, d ∈ domains ↔ d ≠ [] ∧ r d ≠ none
  sites : List.Forall₂ (fun d site => r d = some (.site site)) domains sites

namespace Registry.Ordered

variable {r r' : Registry} {domains domains' : List Str} {sites sites' : List SiteConfig}

theorem congr (h : r.Ordered domains sites) (hsame : ∀ d, d ≠ [] → r' d = r d) : r'.Ordered domains sites := by
  refine ⟨h.nodup, h.sorted, fun d => ?_, ?_⟩
  · rw [h.mem_iff]
    exact and_congr_right fun hne => by rw [hsame d hne]
  · refine List.forall₂_iff_get.2 ⟨h.sites.length_eq, fun i hi hi' => ?_⟩
    rw [hsame _ ((h.mem_iff _).1 (List.get_mem _ _)).1]
    exact h.sites.get hi hi'

/-- **There is one order.** -/
theorem unique (h : r.Ordered domains sites) (h' : r.Ordered domains' sites') : sites = sites' := by
  have hperm : domains.Perm domains' :=
    (List.perm_ext_iff_of_nodup h.nodup h'.nodup).2 fun d => by rw [h.mem_iff, h'.mem_iff]
  have hdomains : domains = domains' := by
    refine hperm.eq_of_pairwise (fun d d' _ _ hle hle' => ?_) h.sorted h'.sorted
    exact List.append_cancel_right (le_antisymm hle hle')
  subst hdomains
  refine List.ext_get (h.sites.length_eq.symm.trans h'.sites.length_eq) fun i hi hi' => ?_
  have hdomain : i < domains.length := by rw [h.sites.length_eq]; exact hi
  have hsite := h.sites.get hdomain hi
  rw [h'.sites.get hdomain hi'] at hsite
  exact (SiteEntry.site.inj (Option.some.inj hsite)).symm

end Registry.Ordered

/-- **A load reads the sites of the registry**, where each entry is one. -/
theorem sitesOf_registry (reading : SiteReading) (env : LoadEnv) {s : FileStore} {sitesDir path : Bytes}
    {dir names : List Bytes} (h : s.HoldsFiles path dir) (hsites : SitesOnly dir s)
    (hread : SitesReadable s env.rights sitesDir dir names)
    (hwhole : ∀ d, d ≠ [] → reading.registry dir s d ≠ some .broken) (main : Bytes) :
    ∃ domains sites, (reading.registry dir s).Ordered domains sites ∧
      sitesOf reading.parse (env.configFiles s main sitesDir (some names)) = .ok sites := by
  obtain ⟨domains, hnodup, hsorted, hmem, hfiles⟩ := siteFiles_eq env hsites hread main
  have hentry : ∀ d ∈ domains, ∃ site, reading.registry dir s d = some (.site site) := by
    intro d hd
    obtain ⟨hne, hname⟩ := (hmem d).1 hd
    have hthere := FileStore.fileAt_ne_none ((hread.lists.mem_iff _).1 hname)
      (hread.files _ (isToml_siteFileName.2 hne))
    cases hentry : reading.registry dir s d with
    | none => exact absurd (Option.map_eq_none_iff.1 hentry) hthere
    | some entry =>
      cases entry with
      | site site => exact ⟨site, rfl⟩
      | broken => exact absurd hentry (hwhole d hne)
  have hmapped : ∀ ds : List Str, (∀ d ∈ ds, d ∈ domains) → ∃ sites,
      List.Forall₂ (fun d site => reading.registry dir s d = some (.site site)) ds sites ∧
        (ds.map (fun d => env.configFile s (siteFile sitesDir d))).mapM (readSite reading.parse) = .ok sites := by
    intro ds
    induction ds with
    | nil => exact fun _ => ⟨[], .nil, rfl⟩
    | cons d ds ih =>
      intro hds
      have hd := hds d List.mem_cons_self
      obtain ⟨site, hsite⟩ := hentry d hd
      obtain ⟨sites, hall, hrest⟩ := ih fun d' hd' => hds d' (List.mem_cons_of_mem _ hd')
      refine ⟨site :: sites, .cons hsite hall, ?_⟩
      rw [List.map_cons, List.mapM_cons,
        readSite_of_entry reading h hsites hread ((hmem d).1 hd).1 ((hmem d).1 hd).2 hsite, hrest]
      rfl
  obtain ⟨sites, hall, hread'⟩ := hmapped domains fun _ hd => hd
  refine ⟨domains, sites, ⟨hnodup, hsorted, fun d => ?_, hall⟩, ?_⟩
  · rw [hmem]
    refine and_congr_right fun hne => ?_
    rw [hread.lists.mem_iff]
    constructor
    · intro hthere hnone
      exact FileStore.fileAt_ne_none hthere (hread.files _ (isToml_siteFileName.2 hne))
        (Option.map_eq_none_iff.1 hnone)
    · intro hentry hnone
      refine hentry ?_
      unfold SiteReading.registry
      rw [FileStore.fileAt_eq_none (.inl hnone)]
      rfl
  · unfold sitesOf
    rw [hfiles]
    exact hread'

/-! ## After any run of commands -/

section

variable (reading : SiteReading) {s : FileStore} {sitesDir : Bytes} {dir : List Bytes}

theorem sitesOnly_runAll (h : s.HoldsFiles sitesDir dir) (hsites : SitesOnly dir s) (calls : List SiteCall) :
    SitesOnly dir (reading.runAll sitesDir s calls) := by
  induction calls generalizing s with
  | nil => exact hsites
  | cons call calls ih =>
    have hstep := SiteReading.refines_step reading h call
    refine ih hstep.holds (fun name htoml hfile => ?_)
    by_cases hown : name = siteFileName call.domain
    · exact ⟨call.domain, call.plain, hown⟩
    · rw [hstep.frame _ (fun hplace => hown (List.singleton_inj.1 (List.append_cancel_left hplace)))] at hfile
      exact hsites name htoml hfile

end

/-- An entry that is a clean site, or none. -/
def CleanEntry (entry : Option SiteEntry) : Prop := ∀ e, entry = some e → ∃ site, e = .site site ∧ site.Clean

/-- Commands on clean sites leave a clean site or none. -/
theorem cleanEntry_foldl {outcomes : List SiteOutcome}
    (h : ∀ o ∈ outcomes, ∀ site forced, o = .added site forced → site.Clean) :
    ∀ {entry : Option SiteEntry}, CleanEntry entry → CleanEntry (outcomes.foldl SiteOutcome.apply entry) := by
  induction outcomes with
  | nil => exact id
  | cons o outcomes ih =>
    intro entry hentry
    refine ih (fun o' ho' => h o' (List.mem_cons_of_mem _ ho')) ?_
    have hwritten : ∀ {site : SiteConfig}, site.Clean → CleanEntry (some (.written site)) := by
      intro site hsite e he
      cases he
      exact ⟨site, if_pos hsite, hsite⟩
    cases o with
    | added site forced => exact hwritten (h _ List.mem_cons_self site forced rfl)
    | removed => exact fun e he => by cases he
    | toggled enabled =>
      cases entry with
      | none => exact hentry
      | some e =>
        obtain ⟨site, rfl, hsite⟩ := hentry e rfl
        have htoggled : ({ site with enabled := enabled } : SiteConfig).Clean := hsite
        exact hwritten htoggled
    | refused | cut => exact hentry

theorem mem_ownOutcomes {domain : Str} {outcomes : List (Str × SiteOutcome)} {o : SiteOutcome}
    (h : o ∈ ownOutcomes domain outcomes) : (domain, o) ∈ outcomes := by
  obtain ⟨⟨d, o'⟩, hmem, ho⟩ := List.mem_filterMap.1 h
  by_cases hd : d = domain
  · rw [if_pos hd] at ho
    cases ho
    exact hd ▸ hmem
  · rw [if_neg hd] at ho
    cases ho

/-- **What is loaded and listed is what the commands have left.**  From a directory without site files, after any run
of commands whose writes were complete and whose sites are clean, a load is the main file's configuration with exactly
the registry's sites merged in, and `site list` prints these, both in the order of the files' names. -/
theorem loaded_after_commands (reading : SiteReading) {s : FileStore} {sitesDir : Bytes} {dir : List Bytes}
    (h : s.HoldsFiles sitesDir dir)
    (hempty : ∀ name, ConfigFiles.isToml (Utf8.lossy name) = true → s.tree.node (dir ++ [name]) = none)
    (calls : List SiteCall) (hwhole : ∀ d, (d, .cut) ∉ reading.outcomes sitesDir s calls)
    (hclean : ∀ d site forced, (d, .added site forced) ∈ reading.outcomes sitesDir s calls → site.Clean)
    {loading listing : LoadEnv} {parent : Option Bytes} {names names' : List Bytes}
    (hload : SitesReadable (reading.runAll sitesDir s calls) loading.rights (sitesOfMain parent) dir names)
    (hlist : SitesReadable (reading.runAll sitesDir s calls) listing.rights sitesDir dir names') (main : Bytes) :
    ∃ domains sites,
      Registry.Ordered (fun d => (ownOutcomes d (reading.outcomes sitesDir s calls)).foldl SiteOutcome.apply none)
        domains sites ∧
      (∀ parseMain, Config.load parseMain reading.parse
          (loading.configFiles (reading.runAll sitesDir s calls) main (sitesOfMain parent) (some names)) =
        (Config.loadMain parseMain
          (loading.configFiles (reading.runAll sitesDir s calls) main (sitesOfMain parent) (some names))).map
            (fun config => config.merge sites)) ∧
      runSiteList reading.parse
          (listing.configFiles (reading.runAll sitesDir s calls) main sitesDir (some names')) =
        (.success, sites.map siteLine) := by
  obtain ⟨hholds, hrun⟩ := SiteReading.runAll_refines reading h calls
  have hstart : SitesOnly dir s := by
    intro name htoml hfile
    exact absurd (FileStore.fileAt_eq_none (.inl (hempty name htoml))) hfile
  have hsites := sitesOnly_runAll reading h hstart calls
  have hleft : ∀ d, d ≠ [] → reading.registry dir (reading.runAll sitesDir s calls) d =
      (ownOutcomes d (reading.outcomes sitesDir s calls)).foldl SiteOutcome.apply none := by
    intro d hne
    rw [entry_of_run hrun (fun hcut => hwhole d (mem_ownOutcomes hcut))]
    unfold SiteReading.registry
    rw [FileStore.fileAt_eq_none (.inl (hempty _ (isToml_siteFileName.2 hne)))]
    rfl
  have hnone : ∀ d, d ≠ [] → reading.registry dir (reading.runAll sitesDir s calls) d ≠ some .broken := by
    intro d hne hbroken
    rw [hleft d hne] at hbroken
    have hstarts : CleanEntry none := fun e he => by cases he
    obtain ⟨site, hsite, -⟩ := cleanEntry_foldl
      (fun o ho site forced hadded => hclean d site forced (hadded ▸ mem_ownOutcomes ho)) hstarts _ hbroken
    cases hsite
  obtain ⟨domains, sites, hordered, hloaded⟩ := sitesOf_registry reading loading hholds hsites hload hnone main
  obtain ⟨domains', sites', hordered', hlisted⟩ := sitesOf_registry reading listing hholds hsites hlist hnone main
  refine ⟨domains, sites, hordered.congr (fun d hne => (hleft d hne).symm),
    fun parseMain => load_of_sitesOf hloaded, ?_⟩
  rw [hordered.unique hordered']
  exact runSiteList_of_sitesOf (Option.some_ne_none _) hlisted

/-! ## A disabled blog -/

/-- A blog is added and disabled. -/
def blogCalls : List SiteCall :=
  [⟨rootEnv.rights, "blog.test".toList, addAt "/srv/blog", directChild_blog⟩,
    ⟨rootEnv.rights, "blog.test".toList, .setEnabled false, directChild_blog⟩]

def rootLoad : LoadEnv := ⟨rootEnv.rights, fun _ => []⟩

def blogFile : Bytes := siteFileName "blog.test".toList

def etcPath : Bytes := Utf8.encode "/etc/zaphyl".toList

def mainPath : Bytes := Utf8.encode "/etc/zaphyl/zaphyl.toml".toList

theorem node_blog (p : List Bytes) : (flatReading.runAll sitesPath hosted blogCalls).tree.node p =
    Function.update (Function.update hosted.tree.node (sitesPlace ++ [blogFile]) (some .file))
      (sitesPlace ++ [blogFile]) (some .file) p := rfl

theorem blog_readable :
    SitesReadable (flatReading.runAll sitesPath hosted blogCalls) rootLoad.rights sitesPath sitesPlace [blogFile] := by
  have hown : (flatReading.runAll sitesPath hosted blogCalls).tree.node (sitesPlace ++ [blogFile]) = some .file := by
    rw [node_blog, Function.update_self]
  have hother : ∀ {name}, name ≠ blogFile →
      (flatReading.runAll sitesPath hosted blogCalls).tree.node (sitesPlace ++ [name]) = none := by
    intro name hname
    have hplace : sitesPlace ++ [name] ≠ sitesPlace ++ [blogFile] :=
      fun h => hname (List.singleton_inj.1 (List.append_cancel_left h))
    rw [node_blog, Function.update_of_ne hplace, Function.update_of_ne hplace, hosted_node_none]
  refine ⟨(flatReading.runAll_refines hosted_holdsFiles blogCalls).1.base, by decide, ⟨List.nodup_singleton _, ?_⟩,
    fun _ _ => rfl, ?_⟩
  · intro name
    rw [List.mem_singleton]
    by_cases hname : name = blogFile
    · rw [hname, hown]
      exact iff_of_true rfl (Option.some_ne_none _)
    · rw [hother hname]
      exact iff_of_false hname (not_not.2 rfl)
  · intro name _
    by_cases hname : name = blogFile
    · rw [hname, hown]
      exact fun h => by cases h
    · rw [hother hname]
      exact fun h => by cases h

theorem loaded_after_commands_blog :
    flatReading.outcomes sitesPath hosted blogCalls =
        [("blog.test".toList, .added (hostedSite "blog" true) false), ("blog.test".toList, .toggled false)] ∧
      runSiteList flatReading.parse (rootLoad.configFiles (flatReading.runAll sitesPath hosted blogCalls) mainPath
        sitesPath (some [blogFile])) = (.success, ["blog.test [static] (DISABLED)".toList]) ∧
      ∃ domains sites,
        Registry.Ordered (fun d => (ownOutcomes d
          (flatReading.outcomes sitesPath hosted blogCalls)).foldl SiteOutcome.apply none) domains sites ∧
        (∀ parseMain, Config.load parseMain flatReading.parse (rootLoad.configFiles
            (flatReading.runAll sitesPath hosted blogCalls) mainPath (sitesOfMain (some etcPath)) (some [blogFile])) =
          (Config.loadMain parseMain (rootLoad.configFiles (flatReading.runAll sitesPath hosted blogCalls) mainPath
            (sitesOfMain (some etcPath)) (some [blogFile]))).map (fun config => config.merge sites)) ∧
        runSiteList flatReading.parse (rootLoad.configFiles (flatReading.runAll sitesPath hosted blogCalls) mainPath
          sitesPath (some [blogFile])) = (.success, sites.map siteLine) := by
  have houtcomes : flatReading.outcomes sitesPath hosted blogCalls =
      [("blog.test".toList, .added (hostedSite "blog" true) false), ("blog.test".toList, .toggled false)] := by
    decide +kernel
  have hwhole : ∀ d, (d, SiteOutcome.cut) ∉ flatReading.outcomes sitesPath hosted blogCalls := by
    intro d
    rw [houtcomes]
    simp
  have hclean : ∀ d site forced, (d, SiteOutcome.added site forced) ∈ flatReading.outcomes sitesPath hosted blogCalls →
      site.Clean := by
    intro d site forced hmem
    rw [houtcomes] at hmem
    simp only [List.mem_cons, Prod.mk.injEq, SiteOutcome.added.injEq, reduceCtorEq, and_false, List.not_mem_nil,
      or_false] at hmem
    rw [hmem.2.1]
    decide
  exact ⟨houtcomes, by decide +kernel, loaded_after_commands flatReading hosted_holdsFiles
    (fun name _ => hosted_node_none name) blogCalls hwhole hclean blog_readable blog_readable mainPath⟩

end Zaphyl
