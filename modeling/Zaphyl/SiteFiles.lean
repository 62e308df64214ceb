import Zaphyl.Sites
import Zaphyl.Toml
import Zaphyl.Utf8
/-!
# SiteFiles — site files written and read again

`site add` writes a site file, and `site enable` and `site disable` write the parsed one anew with its last line.  The
writer escapes the quote and the backslash and no control character, so a file is read back, added or toggled in any
sequence, exactly when no string of the site has a control character besides the tab (`site_files_round_trip_iff`).
-/
namespace Zaphyl

open Toml (Value Table Reading)

/-! ## Reading a site file -/

def SiteKind.text : SiteKind → Str
  | .static => "static".toList
  | .php => "php".toList
  | .app => "app".toList

def SiteKind.ofValue : Value → Option SiteKind
  | .string s =>
    if s = "static".toList then some .static
    else if s = "php".toList then some .php
    else if s = "app".toList then some .app
    else none
  | .boolean _ => none

def SiteTls.text : SiteTls → Str
  | .auto => "auto".toList
  | .off => "off".toList

def SiteTls.ofValue : Value → Option SiteTls
  | .string s => if s = "auto".toList then some .auto else if s = "off".toList then some .off else none
  | .boolean _ => none

/-- A field that must be there. -/
def requiredField {α : Type} (t : Table) (name : String) (read : Value → Option α) : Option α :=
  (t.lookup name.toList).bind read

/-- A field that has a default. -/
def defaultField {α : Type} (t : Table) (name : String) (default : α) (read : Value → Option α) : Option α :=
  match t.lookup name.toList with
  | some value => read value
  | none => some default

def siteFields : List Str :=
  ["domain".toList, "root".toList, "type".toList, "tls".toList, "app".toList, "php_fpm".toList, "enabled".toList]

namespace SiteConfig

/-- The site of a table: unknown fields are denied. -/
def ofTable (t : Table) : Option SiteConfig :=
  if t.all (fun e => siteFields.contains e.1) then do
    let domain ← requiredField t "domain" Value.string?
    let root ← requiredField t "root" Value.string?
    let kind ← requiredField t "type" SiteKind.ofValue
    let tls ← defaultField t "tls" .auto SiteTls.ofValue
    let app ← defaultField t "app" none (fun v => v.string?.map some)
    let phpFpm ← defaultField t "php_fpm" none (fun v => v.string?.map some)
    let enabled ← defaultField t "enabled" true Value.boolean?
    return ⟨domain, root, kind, tls, app, phpFpm, enabled⟩
  else none

/-- The site of a flat document. -/
def ofFlat (text : Str) : Reading SiteConfig :=
  (Toml.read text).bind (fun table =>
    match ofTable table with
    | some site => .result site
    | none => .malformed)

/-- **A parser reads flat documents**: it gives their sites, and errors for what is no site or no TOML. -/
def ReadsFlat (parse : Str → Except Str SiteConfig) : Prop :=
  ∀ text, (∀ site, ofFlat text = .result site → parse text = .ok site) ∧
    (ofFlat text = .malformed → ∃ e, parse text = .error e)

/-- No string of the site has a control character that TOML wants escaped. -/
def Clean (s : SiteConfig) : Prop :=
  Toml.Clean s.domain ∧ Toml.Clean s.root ∧ (∀ app ∈ s.app, Toml.Clean app) ∧ ∀ fpm ∈ s.phpFpm, Toml.Clean fpm

instance (s : SiteConfig) : Decidable s.Clean :=
  inferInstanceAs (Decidable (Toml.Clean s.domain ∧ Toml.Clean s.root ∧ (∀ app ∈ s.app, Toml.Clean app) ∧
    ∀ fpm ∈ s.phpFpm, Toml.Clean fpm))

end SiteConfig

/-! ## Writing a site file -/

/-- `str::replace` of a character. -/
def replace (s : Str) (c : Char) (replacement : Str) : Str := s.flatMap (fun d => if d = c then replacement else [d])

/-- Escape a string for use inside a TOML basic string. -/
def tomlEscape (s : Str) : Str := replace (replace s '\\' ['\\', '\\']) '"' ['\\', '"']

/-- Serialize a site configuration; a path is its bytes. -/
def writeSiteToml (domain : Str) (root : Bytes) (kind : SiteKind) (tlsOff : Bool) (app phpFpm : Option Str) : Str :=
  let kindStr := match kind with
    | .static => "static".toList
    | .php => "php".toList
    | .app => "app".toList
  let tlsStr := if tlsOff then "off".toList else "auto".toList
  let rootStr := tomlEscape (Utf8.lossy root)
  let domainStr := tomlEscape domain
  let out := "domain = \"".toList ++ domainStr ++ "\"\n".toList
  let out := out ++ ("root = \"".toList ++ rootStr ++ "\"\n".toList)
  let out := out ++ ("type = \"".toList ++ kindStr ++ "\"\n".toList)
  let out := out ++ ("tls = \"".toList ++ tlsStr ++ "\"\n".toList)
  let out := match app with
    | some upstream => out ++ ("app = \"".toList ++ tomlEscape upstream ++ "\"\n".toList)
    | none => out
  match phpFpm with
  | some fpm => out ++ ("php_fpm = \"".toList ++ tomlEscape fpm ++ "\"\n".toList)
  | none => out

def enabledLine (enabled : Bool) : Str :=
  "enabled = ".toList ++ (if enabled then "true".toList else "false".toList) ++ "\n".toList

/-- `site enable` and `site disable`: the file afterwards.  One that cannot be parsed stays as it is. -/
def runSiteSetEnabled (parse : Str → Except Str SiteConfig) (body : Str) (enabled : Bool) : Str :=
  match SiteConfig.fromToml parse body with
  | .ok site =>
    writeSiteToml site.domain (Utf8.encode site.root) site.kind (site.tls == .off) site.app site.phpFpm ++
      enabledLine enabled
  | .error _ => body

/-! ## Adding a site -/

structure SiteAddOpts where
  root : Option Bytes
  app : Option Str
  forcePhp : Bool
  forceStatic : Bool
  noTls : Bool
  force : Bool

/-- What the command meets: the paths that are there, the directories, the operations that succeed, and the domains that
parse as an IP address. -/
structure SiteHost where
  pathExists : Bytes → Bool
  isDir : Bytes → Bool
  createDirAll : Bytes → Bool
  write : Bytes → Bool
  parsesAsIp : Str → Bool

/-- `Path::join`. -/
def joinPath (base path : Bytes) : Bytes :=
  if path.head? = some 47 then path
  else if base = [] || base.getLast? = some 47 then base ++ path
  else base ++ 47 :: path

namespace SiteHost

variable (host : SiteHost)

def detectKind (root : Bytes) : SiteKind :=
  if host.pathExists (joinPath root (Utf8.encode "composer.json".toList)) &&
      host.isDir (joinPath root (Utf8.encode "public".toList)) then .php
  else if host.pathExists (joinPath root (Utf8.encode "index.php".toList)) then .php
  else .static

/-- Local domains get no certificate. -/
def isLocal (domain : Str) : Bool :=
  domain == "localhost".toList || ".local".toList.isSuffixOf domain || ".test".toList.isSuffixOf domain ||
    host.parsesAsIp domain

/-- The site that is added: explicit flags win, and a PHP site is served from its public directory. -/
def siteToAdd (domain : Str) (opts : SiteAddOpts) (root : Bytes) : SiteKind × Bytes × Bool :=
  let kind :=
    if opts.app.isSome then .app
    else if opts.forcePhp then .php
    else if opts.forceStatic then .static
    else host.detectKind root
  let servedRoot :=
    if kind == .php && host.isDir (joinPath root (Utf8.encode "public".toList)) then
      joinPath root (Utf8.encode "public".toList)
    else root
  (kind, servedRoot, opts.noTls || host.isLocal domain)

def webRoot (domain : Str) (opts : SiteAddOpts) (webrootBase : Bytes) : Bytes :=
  opts.root.getD (joinPath webrootBase (Utf8.encode domain))

/-- `site add`: the file it writes, when it succeeds. -/
def runSiteAddInner (domain : Str) (opts : SiteAddOpts) (sitesDir webrootBase : Bytes) : Option (Bytes × Str) :=
  let root := webRoot domain opts webrootBase
  let (kind, servedRoot, tlsOff) := host.siteToAdd domain opts root
  let siteFile := joinPath sitesDir (Utf8.encode (domain ++ ".toml".toList))
  if !host.createDirAll sitesDir then none
  else if host.pathExists siteFile && !opts.force then none
  else if !host.createDirAll root then none
  else if !host.write siteFile then none
  else some (siteFile, writeSiteToml domain servedRoot kind tlsOff opts.app none)

end SiteHost

/-! ## What is written reads back -/

theorem tomlEscape_eq (s : Str) : tomlEscape s = Toml.escape s := by
  induction s with
  | nil => rfl
  | cons c s ih =>
    have hcons : tomlEscape (c :: s) = replace (if c = '\\' then ['\\', '\\'] else [c]) '"' ['\\', '"'] ++ tomlEscape s := by
      simp [tomlEscape, replace]
    rw [hcons, ih, Toml.escape_cons]
    by_cases hbackslash : c = '\\'
    · subst hbackslash
      rfl
    · by_cases hquote : c = '"'
      · subst hquote
        rfl
      · simp [replace, hbackslash, hquote]

/-- The entries of a site file. -/
def siteEntries (s : SiteConfig) : List (Str × Str) :=
  [("domain".toList, s.domain), ("root".toList, s.root), ("type".toList, s.kind.text), ("tls".toList, s.tls.text)] ++
    s.app.toList.map (fun app => ("app".toList, app)) ++ s.phpFpm.toList.map (fun fpm => ("php_fpm".toList, fpm))

/-- The site that a file is written of. -/
def writtenSite (domain : Str) (root : Bytes) (kind : SiteKind) (tlsOff : Bool) (app phpFpm : Option Str)
    (enabled : Bool) : SiteConfig :=
  ⟨domain, Utf8.lossy root, kind, if tlsOff then .off else .auto, app, phpFpm, enabled⟩

/-- The site that `site add` adds. -/
def SiteHost.addedSite (host : SiteHost) (domain : Str) (opts : SiteAddOpts) (webrootBase : Bytes) : SiteConfig :=
  let (kind, servedRoot, tlsOff) := host.siteToAdd domain opts (webRoot domain opts webrootBase)
  writtenSite domain servedRoot kind tlsOff opts.app none true

theorem writeSiteToml_eq (domain : Str) (root : Bytes) (kind : SiteKind) (tlsOff : Bool) (app phpFpm : Option Str)
    (enabled : Bool) : writeSiteToml domain root kind tlsOff app phpFpm =
      (siteEntries (writtenSite domain root kind tlsOff app phpFpm enabled)).flatMap Toml.stringLine := by
  have hkind : Toml.escape kind.text = match kind with
      | .static => "static".toList
      | .php => "php".toList
      | .app => "app".toList := by
    cases kind <;> rfl
  have htls : Toml.escape (if tlsOff then SiteTls.off else .auto).text = if tlsOff then "off".toList else "auto".toList := by
    cases tlsOff <;> rfl
  have hline : ∀ key s : Str, Toml.stringLine (key, s) = key ++ " = \"".toList ++ Toml.escape s ++ "\"\n".toList :=
    fun _ _ => rfl
  have hdomain : "domain = \"".toList = "domain".toList ++ " = \"".toList := rfl
  have hroot : "root = \"".toList = "root".toList ++ " = \"".toList := rfl
  have htype : "type = \"".toList = "type".toList ++ " = \"".toList := rfl
  have htlsKey : "tls = \"".toList = "tls".toList ++ " = \"".toList := rfl
  have happ : "app = \"".toList = "app".toList ++ " = \"".toList := rfl
  have hfpm : "php_fpm = \"".toList = "php_fpm".toList ++ " = \"".toList := rfl
  unfold writeSiteToml siteEntries writtenSite
  rw [hdomain, hroot, htype, htlsKey, happ, hfpm]
  -- both sides are the lines of the same entries, appended to the right
  cases app <;> cases phpFpm <;>
    simp only [Option.toList_none, Option.toList_some, List.map_cons, List.map_nil, List.append_nil, List.flatMap_cons,
      List.flatMap_nil, hline, hkind, htls, tomlEscape_eq, List.append_assoc, List.cons_append, List.nil_append]

/-- The table of a site file, with its last line when it has one. -/
def siteTable (s : SiteConfig) (enabled : Option Bool) : Table :=
  (siteEntries s).map (fun e => (e.1, Value.string e.2)) ++
    enabled.toList.map (fun b => ("enabled".toList, Value.boolean b))

/-- The keys of a site file are fields of a site, each at most once. -/
theorem keys_siteTable (s : SiteConfig) (enabled : Option Bool) :
    ((siteTable s enabled).map Prod.fst).Sublist siteFields := by
  have hopt : ∀ {α : Type} (o : Option α) (key : Str), (o.toList.map (fun _ => key)).Sublist [key] := by
    intro α o key
    cases o with
    | none => exact List.nil_sublist _
    | some a => exact List.Sublist.refl _
  have hkeys : (siteTable s enabled).map Prod.fst =
      ["domain".toList, "root".toList, "type".toList, "tls".toList] ++ s.app.toList.map (fun _ => "app".toList) ++
        s.phpFpm.toList.map (fun _ => "php_fpm".toList) ++ enabled.toList.map (fun _ => "enabled".toList) := by
    unfold siteTable siteEntries
    simp only [List.map_append, List.map_map, List.map_cons, List.map_nil, Function.comp_def]
  have hfields : siteFields = ["domain".toList, "root".toList, "type".toList, "tls".toList] ++ ["app".toList] ++
      ["php_fpm".toList] ++ ["enabled".toList] := rfl
  rw [hkeys, hfields]
  exact (((List.Sublist.refl _).append (hopt _ _)).append (hopt _ _)).append (hopt _ _)

theorem nodup_siteTable (s : SiteConfig) (enabled : Option Bool) : ((siteTable s enabled).map Prod.fst).Nodup :=
  (keys_siteTable s enabled).nodup (by decide)

theorem SiteKind.ofValue_text (kind : SiteKind) : SiteKind.ofValue (.string kind.text) = some kind := by
  cases kind <;> rfl

theorem SiteTls.ofValue_text (tls : SiteTls) : SiteTls.ofValue (.string tls.text) = some tls := by
  cases tls <;> rfl

/-- **A site's table gives the site**, enabled as its last line says. -/
theorem ofTable_siteTable (s : SiteConfig) (enabled : Option Bool) :
    SiteConfig.ofTable (siteTable s enabled) = some { s with enabled := enabled.getD true } := by
  have hfields : (siteTable s enabled).all (fun e => siteFields.contains e.1) = true := by
    apply List.all_eq_true.2
    intro e he
    exact List.contains_iff_mem.2 ((keys_siteTable s enabled).subset (List.mem_map_of_mem he))
  have hdomain : (siteTable s enabled).lookup "domain".toList = some (.string s.domain) := rfl
  have hroot : (siteTable s enabled).lookup "root".toList = some (.string s.root) := rfl
  have hkind : (siteTable s enabled).lookup "type".toList = some (.string s.kind.text) := rfl
  have htls : (siteTable s enabled).lookup "tls".toList = some (.string s.tls.text) := rfl
  have happ : (siteTable s enabled).lookup "app".toList = s.app.map Value.string := by
    unfold siteTable siteEntries
    cases s.app <;> cases s.phpFpm <;> cases enabled <;> rfl
  have hfpm : (siteTable s enabled).lookup "php_fpm".toList = s.phpFpm.map Value.string := by
    unfold siteTable siteEntries
    cases s.app <;> cases s.phpFpm <;> cases enabled <;> rfl
  have henabled : (siteTable s enabled).lookup "enabled".toList = enabled.map Value.boolean := by
    unfold siteTable siteEntries
    cases s.app <;> cases s.phpFpm <;> cases enabled <;> rfl
  unfold SiteConfig.ofTable requiredField defaultField
  rw [if_pos hfields, hdomain, hroot, hkind, htls, happ, hfpm, henabled, Option.bind_some, Option.bind_some,
    Option.bind_some, SiteKind.ofValue_text]
  simp only [SiteTls.ofValue_text]
  cases s.app <;> cases s.phpFpm <;> cases enabled <;> rfl

theorem isBareKey_siteEntries (s : SiteConfig) : ∀ e ∈ siteEntries s, Toml.IsBareKey e.1 := by
  have hfields : ∀ key ∈ siteFields, Toml.IsBareKey key := by decide
  intro e he
  apply hfields
  apply (keys_siteTable s none).subset
  have hmem : (e.1, Value.string e.2) ∈ siteTable s none :=
    List.mem_append_left _ (List.mem_map_of_mem (f := fun e : Str × Str => (e.1, Value.string e.2)) he)
  exact List.mem_map_of_mem (f := Prod.fst) hmem

theorem clean_siteEntries_iff (s : SiteConfig) : (∀ e ∈ siteEntries s, Toml.Clean e.2) ↔ s.Clean := by
  have hkind : Toml.Clean s.kind.text := by cases s.kind <;> decide
  have htls : Toml.Clean s.tls.text := by cases s.tls <;> decide
  unfold siteEntries SiteConfig.Clean
  simp only [List.forall_mem_append, List.forall_mem_cons, List.forall_mem_map, Option.mem_toList, Option.mem_def, hkind,
    htls, List.not_mem_nil, false_imp_iff, implies_true, and_true, and_assoc]

/-- The last line of a site file, when it has one. -/
def enabledText (enabled : Option Bool) : Str := (enabled.map enabledLine).getD []

theorem readLines_enabledText (enabled : Option Bool) {fuel : Nat} (h : (enabledText enabled).length < fuel) :
    Toml.readLines fuel (enabledText enabled) =
      .result (enabled.toList.map (fun b => ("enabled".toList, Value.boolean b))) := by
  cases enabled with
  | none =>
    obtain ⟨n, rfl⟩ := Nat.exists_eq_add_of_lt h
    rfl
  | some b =>
    have hlength : 3 ≤ (enabledText (some b)).length := by cases b <;> decide
    obtain ⟨n, rfl⟩ : ∃ n, fuel = n + 3 := ⟨fuel - 3, by omega⟩
    cases b <;> rfl

/-- **A written file reads back as its site exactly when the site is clean**, and is no TOML otherwise. -/
theorem ofFlat_siteEntries (s : SiteConfig) (enabled : Option Bool) :
    SiteConfig.ofFlat ((siteEntries s).flatMap Toml.stringLine ++ enabledText enabled) =
      if s.Clean then .result { s with enabled := enabled.getD true } else .malformed := by
  obtain ⟨fuel, hfuel, hread⟩ := Toml.read_stringLines (isBareKey_siteEntries s) (enabledText enabled)
  rw [SiteConfig.ofFlat, hread, readLines_enabledText enabled hfuel]
  by_cases hs : s.Clean
  · rw [if_pos hs, if_pos ((clean_siteEntries_iff s).2 hs)]
    have hnodup := nodup_siteTable s enabled
    have htable := ofTable_siteTable s enabled
    unfold siteTable at hnodup htable
    simp only [Reading.bind_result]
    rw [if_pos hnodup, Reading.bind_result, htable]
  · rw [if_neg hs, if_neg (fun h => hs ((clean_siteEntries_iff s).1 h)), Reading.bind_malformed]

/-! ## Round trips -/

variable {parse : Str → Except Str SiteConfig}

/-- What a parser of flat documents makes of a written file. -/
theorem fromToml_siteEntries (hparse : SiteConfig.ReadsFlat parse) (s : SiteConfig) (enabled : Option Bool) :
    (s.Clean → SiteConfig.fromToml parse ((siteEntries s).flatMap Toml.stringLine ++ enabledText enabled) =
        .ok { s with enabled := enabled.getD true }) ∧
      (¬ s.Clean → ∃ e, SiteConfig.fromToml parse ((siteEntries s).flatMap Toml.stringLine ++ enabledText enabled) =
        .error e) := by
  obtain ⟨hresult, hmalformed⟩ := hparse ((siteEntries s).flatMap Toml.stringLine ++ enabledText enabled)
  rw [ofFlat_siteEntries] at hresult hmalformed
  constructor
  · intro hs
    rw [if_pos hs] at hresult
    rw [SiteConfig.fromToml, hresult _ rfl]
    rfl
  · intro hs
    rw [if_neg hs] at hmalformed
    obtain ⟨e, he⟩ := hmalformed rfl
    exact ⟨.toml e, by rw [SiteConfig.fromToml, he]; rfl⟩

/-- The file that toggling writes for a site. -/
def toggledText (s : SiteConfig) (enabled : Bool) : Str :=
  writeSiteToml s.domain (Utf8.encode s.root) s.kind (s.tls == .off) s.app s.phpFpm ++ enabledLine enabled

theorem toggledText_eq (s : SiteConfig) (enabled : Bool) :
    toggledText s enabled = (siteEntries s).flatMap Toml.stringLine ++ enabledText (some enabled) := by
  have htls : (if (s.tls == .off) = true then SiteTls.off else .auto) = s.tls := by cases s.tls <;> rfl
  have hsite : writtenSite s.domain (Utf8.encode s.root) s.kind (s.tls == .off) s.app s.phpFpm s.enabled = s := by
    rw [writtenSite, Utf8.lossy_encode, htls]
  rw [toggledText, writeSiteToml_eq _ _ _ _ _ _ s.enabled, hsite]
  rfl

theorem runSiteSetEnabled_of_ok {body : Str} {s : SiteConfig} (h : SiteConfig.fromToml parse body = .ok s) (b : Bool) :
    runSiteSetEnabled parse body b = toggledText s b := by
  rw [runSiteSetEnabled, h]
  rfl

theorem runSiteSetEnabled_of_error {body : Str} {e : ConfigError} (h : SiteConfig.fromToml parse body = .error e)
    (b : Bool) : runSiteSetEnabled parse body b = body := by
  rw [runSiteSetEnabled, h]

/-- A file that cannot be parsed stays as it is through any toggles. -/
theorem foldl_setEnabled_of_error {body : Str} {e : ConfigError} (h : SiteConfig.fromToml parse body = .error e)
    (bs : List Bool) : bs.foldl (runSiteSetEnabled parse) body = body := by
  induction bs with
  | nil => rfl
  | cons b bs ih => rw [List.foldl_cons, runSiteSetEnabled_of_error h, ih]

/-- **Toggles of a clean site change only whether it is enabled.** -/
theorem foldl_setEnabled_of_clean (hparse : SiteConfig.ReadsFlat parse) (bs : List Bool) :
    ∀ {body : Str} {s : SiteConfig}, s.Clean → SiteConfig.fromToml parse body = .ok s →
      SiteConfig.fromToml parse (bs.foldl (runSiteSetEnabled parse) body) =
        .ok { s with enabled := bs.getLast?.getD s.enabled } := by
  induction bs with
  | nil => exact fun _ h => h
  | cons b bs ih =>
    intro body s hs h
    have hnext : SiteConfig.fromToml parse (toggledText s b) = .ok { s with enabled := b } := by
      rw [toggledText_eq]
      exact (fromToml_siteEntries hparse s (some b)).1 hs
    rw [List.foldl_cons, runSiteSetEnabled_of_ok h, ih (s := { s with enabled := b }) hs hnext, List.getLast?_cons]
    rfl

theorem toggled_iff (hparse : SiteConfig.ReadsFlat parse) {body : Str} {s : SiteConfig}
    (h : SiteConfig.fromToml parse body = .ok s) (b : Bool) (bs : List Bool) :
    SiteConfig.fromToml parse ((b :: bs).foldl (runSiteSetEnabled parse) body) =
        .ok { s with enabled := (b :: bs).getLast?.getD s.enabled } ↔ s.Clean := by
  constructor
  · intro htoggled
    by_contra hs
    obtain ⟨e, he⟩ := (fromToml_siteEntries hparse s (some b)).2 hs
    rw [← toggledText_eq] at he
    rw [List.foldl_cons, runSiteSetEnabled_of_ok h, foldl_setEnabled_of_error he, he] at htoggled
    cases htoggled
  · exact fun hs => foldl_setEnabled_of_clean hparse (b :: bs) hs h

theorem runSiteAddInner_text {host : SiteHost} {domain : Str} {opts : SiteAddOpts} {sitesDir webrootBase file : Bytes}
    {text : Str} (h : host.runSiteAddInner domain opts sitesDir webrootBase = some (file, text)) :
    text = (siteEntries (host.addedSite domain opts webrootBase)).flatMap Toml.stringLine ++ enabledText none := by
  simp only [SiteHost.runSiteAddInner] at h
  split at h
  · cases h
  · split at h
    · cases h
    · split at h
      · cases h
      · split at h
        · cases h
        · cases h
          rw [writeSiteToml_eq _ _ _ _ _ _ true, enabledText, Option.map_none, Option.getD_none, List.append_nil]
          rfl

/-- The file that `site add` writes can be loaded exactly when the site added is clean. -/
theorem added_iff (hparse : SiteConfig.ReadsFlat parse) {host : SiteHost} {domain : Str} {opts : SiteAddOpts}
    {sitesDir webrootBase file : Bytes} {text : Str}
    (h : host.runSiteAddInner domain opts sitesDir webrootBase = some (file, text)) :
    (∃ s, SiteConfig.fromToml parse text = .ok s) ↔ (host.addedSite domain opts webrootBase).Clean := by
  obtain ⟨hclean, hdirty⟩ := fromToml_siteEntries hparse (host.addedSite domain opts webrootBase) none
  rw [← runSiteAddInner_text h] at hclean hdirty
  constructor
  · rintro ⟨s, hs⟩
    by_contra hnot
    obtain ⟨e, he⟩ := hdirty hnot
    rw [he] at hs
    cases hs
  · exact fun hs => ⟨_, hclean hs⟩

theorem written_iff (hparse : SiteConfig.ReadsFlat parse) (s : SiteConfig) (b : Bool) :
    SiteConfig.fromToml parse (toggledText s b) = .ok { s with enabled := b } ↔ s.Clean := by
  obtain ⟨hclean, hdirty⟩ := fromToml_siteEntries hparse s (some b)
  rw [← toggledText_eq] at hclean hdirty
  constructor
  · intro hs
    by_contra hnot
    obtain ⟨e, he⟩ := hdirty hnot
    rw [he] at hs
    cases hs
  · exact hclean

/-- **Site files round-trip exactly where no string has a control character besides the tab**: when a site is written
with its last line, when one is added, and through any toggles of a file that parses. -/
theorem site_files_round_trip_iff (hparse : SiteConfig.ReadsFlat parse) :
    (∀ (s : SiteConfig) (b : Bool), SiteConfig.fromToml parse (toggledText s b) = .ok { s with enabled := b } ↔ s.Clean) ∧
      (∀ (host : SiteHost) domain opts sitesDir webrootBase file text,
        host.runSiteAddInner domain opts sitesDir webrootBase = some (file, text) →
          ((∃ s, SiteConfig.fromToml parse text = .ok s) ↔ (host.addedSite domain opts webrootBase).Clean)) ∧
      ∀ body s, SiteConfig.fromToml parse body = .ok s → ∀ b bs,
        (SiteConfig.fromToml parse ((b :: bs).foldl (runSiteSetEnabled parse) body) =
          .ok { s with enabled := (b :: bs).getLast?.getD s.enabled } ↔ s.Clean) :=
  ⟨written_iff hparse, fun _ _ _ _ _ _ _ h => added_iff hparse h, fun _ _ h b bs => toggled_iff hparse h b bs⟩

/-! ## A path with a control character -/

/-- A parser of flat documents. -/
def parseFlat (text : Str) : Except Str SiteConfig :=
  match SiteConfig.ofFlat text with
  | .result site => .ok site
  | .malformed => .error "malformed".toList
  | .beyond => .error "beyond a flat document".toList

theorem parseFlat_readsFlat : SiteConfig.ReadsFlat parseFlat := by
  intro text
  unfold parseFlat
  constructor
  · intro site h
    rw [h]
  · intro h
    rw [h]
    exact ⟨_, rfl⟩

def blogSite (root : Str) : SiteConfig := ⟨"blog.test".toList, root, .php, .off, none, some "127.0.0.1:9000".toList, true⟩

/-- A site whose path has a quote, a backslash and a tab is written and read back. -/
theorem quoted_path_round_trips :
    SiteConfig.fromToml parseFlat (toggledText (blogSite "/srv/\"a\\b\"\tc".toList) false) =
      .ok { blogSite "/srv/\"a\\b\"\tc".toList with enabled := false } :=
  ((site_files_round_trip_iff parseFlat_readsFlat).1 _ false).2 (by decide)

/-- A site file whose path has an escaped control character. -/
def escapedFile : Str :=
  "domain = \"blog.test\"\nroot = \"/srv/\\u0001\"\ntype = \"php\"\ntls = \"off\"\nphp_fpm = \"127.0.0.1:9000\"\n".toList

/-- **A control character is written as it is**: the site's file is not read back, and disabling a site whose file escapes
one leaves a file that cannot be loaded. -/
theorem control_character_unread :
    SiteConfig.ReadsFlat parseFlat ∧
      (SiteConfig.fromToml parseFlat (toggledText (blogSite ("/srv/".toList ++ [Char.ofNat 1])) true)).toOption = none ∧
      SiteConfig.fromToml parseFlat escapedFile = .ok (blogSite ("/srv/".toList ++ [Char.ofNat 1])) ∧
      (SiteConfig.fromToml parseFlat (runSiteSetEnabled parseFlat escapedFile false)).toOption = none := by
  refine ⟨parseFlat_readsFlat, ?_, ?_, ?_⟩
  all_goals decide +kernel

end Zaphyl
