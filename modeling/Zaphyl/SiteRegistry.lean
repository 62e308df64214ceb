import Zaphyl.HeldFiles
import Zaphyl.Runs
import Zaphyl.SiteCommands
/-!
# SiteRegistry — a sites directory as a registry of sites

A site command does to the map from domains to sites what it says, or nothing, whatever the commands before it were
(`commands_refine_registry`): the text that it writes reads back as the site, and no other domain's file changes.
-/
namespace Zaphyl

open UnixPath

/-! ## The registry -/

/-- What a site's file is: a site, or no site. -/
inductive SiteEntry
  | site (site : SiteConfig)
  | broken
deriving DecidableEq

/-- What is written of a site: a control character breaks it. -/
def SiteEntry.written (site : SiteConfig) : SiteEntry := if site.Clean then .site site else .broken

/-- The sites by domain. -/
abbrev Registry := Str → Option SiteEntry

inductive SiteOutcome
  | added (site : SiteConfig) (forced : Bool)
  | removed
  | toggled (enabled : Bool)
  | refused
  | cut
deriving DecidableEq

namespace SiteOutcome

/-- What an outcome makes of its domain's entry, a cut write apart. -/
def apply (entry : Option SiteEntry) : SiteOutcome → Option SiteEntry
  | added site _ => some (.written site)
  | removed => none
  | toggled enabled =>
    match entry with
    | some (.site site) => some (.written { site with enabled := enabled })
    | _ => entry
  | refused => entry
  | cut => entry

/-- The entries that an outcome may find. -/
def Allowed (entry : Option SiteEntry) : SiteOutcome → Prop
  | added _ forced => entry = none ∨ forced = true
  | removed => entry ≠ none
  | toggled _ => ∃ site, entry = some (.site site)
  | refused => True
  | cut => True

end SiteOutcome

/-- A step of the registry: the entry of one domain. -/
inductive Registry.Step : Registry → Str × SiteOutcome → Registry → Prop
  | whole {r : Registry} {domain : Str} {outcome : SiteOutcome} (allowed : outcome.Allowed (r domain))
      (whole : outcome ≠ .cut) : Step r (domain, outcome) (Function.update r domain (outcome.apply (r domain)))
  | cut {r : Registry} {domain : Str} (left : SiteEntry) :
      Step r (domain, .cut) (Function.update r domain (some left))

/-- The outcomes of a domain's commands. -/
def ownOutcomes (domain : Str) (outcomes : List (Str × SiteOutcome)) : List SiteOutcome :=
  outcomes.filterMap (fun o => if o.1 = domain then some o.2 else none)

/-- **A domain's entry is what its own commands made of it.** -/
theorem entry_of_run {r r' : Registry} {outcomes : List (Str × SiteOutcome)}
    (h : Runs.Run Registry.Step r outcomes r') {domain : Str} (hwhole : .cut ∉ ownOutcomes domain outcomes) :
    r' domain = (ownOutcomes domain outcomes).foldl SiteOutcome.apply (r domain) := by
  induction h with
  | nil => rfl
  | @cons r t r' o outcomes hstep _ ih =>
    by_cases hown : o.1 = domain
    · have hcons : ownOutcomes domain (o :: outcomes) = o.2 :: ownOutcomes domain outcomes := by
        rw [ownOutcomes, List.filterMap_cons, if_pos hown]
        rfl
      rw [hcons] at hwhole ⊢
      rw [ih (fun hcut => hwhole (List.mem_cons_of_mem _ hcut)), List.foldl_cons]
      cases hstep with
      | whole =>
        cases hown
        rw [Function.update_self]
      | cut => exact absurd List.mem_cons_self hwhole
    · have hcons : ownOutcomes domain (o :: outcomes) = ownOutcomes domain outcomes := by
        rw [ownOutcomes, List.filterMap_cons, if_neg hown]
        rfl
      rw [hcons] at hwhole ⊢
      rw [ih hwhole]
      cases hstep with
      | whole => rw [Function.update_of_ne (Ne.symm hown)]
      | cut => rw [Function.update_of_ne (Ne.symm hown)]

/-! ## The directory -/

/-- How texts are read: as IP addresses and as site files, flat documents among them. -/
structure SiteReading where
  parsesAsIp : Str → Bool
  parse : Str → Except Str SiteConfig
  readsFlat : SiteConfig.ReadsFlat parse

instance (domain : Str) : Decidable (DirectChild domain) :=
  inferInstanceAs (Decidable ('/' ∉ domain ∧ '\x00' ∉ domain))

/-- A command on a domain that can name a file, and what the system permits it. -/
structure SiteCall where
  rights : Rights
  domain : Str
  command : SiteCommand
  plain : DirectChild domain

namespace SiteReading

variable (reading : SiteReading)

def entry (bytes : Bytes) : SiteEntry :=
  match (readToString bytes).map (SiteConfig.fromToml reading.parse) with
  | some (.ok site) => .site site
  | _ => .broken

/-- The registry that a directory's files are. -/
def registry (dir : List Bytes) (s : FileStore) : Registry :=
  fun domain => (s.fileAt (dir ++ [siteFileName domain])).map (fun file => reading.entry file.2)

def env (call : SiteCall) : SiteEnv := ⟨call.rights, reading.parsesAsIp, reading.parse⟩

def run (sitesDir : Bytes) (s : FileStore) (call : SiteCall) : SiteRun :=
  call.command.run (reading.env call) call.domain sitesDir s

/-- What a command says that it has done. -/
def said (s : FileStore) (call : SiteCall) : SiteOutcome :=
  match call.command with
  | .add opts webrootBase =>
    .added ((siteHost (reading.env call) s).addedSite call.domain opts webrootBase) opts.force
  | .remove => .removed
  | .setEnabled enabled => .toggled enabled

theorem said_ne_cut (s : FileStore) (call : SiteCall) : reading.said s call ≠ .cut := by
  unfold said
  cases call.command <;> exact fun h => by cases h

def outcome (sitesDir : Bytes) (s : FileStore) (call : SiteCall) : SiteOutcome :=
  match (reading.run sitesDir s call).exit with
  | .success => reading.said s call
  | .failure => if (reading.run sitesDir s call).touched = [] then .refused else .cut

def runAll (sitesDir : Bytes) (s : FileStore) (calls : List SiteCall) : FileStore :=
  calls.foldl (fun s call => (reading.run sitesDir s call).store) s

def outcomes (sitesDir : Bytes) : FileStore → List SiteCall → List (Str × SiteOutcome)
  | _, [] => []
  | s, call :: calls =>
    (call.domain, reading.outcome sitesDir s call) :: outcomes sitesDir (reading.run sitesDir s call).store calls

/-! ## What is read of what is written -/

theorem entry_encode (text : Str) : reading.entry (Utf8.encode text) =
    match SiteConfig.fromToml reading.parse text with
    | .ok site => .site site
    | .error _ => .broken := by
  unfold entry readToString
  rw [Utf8.lossy_encode, if_pos rfl, Option.map_some]
  cases SiteConfig.fromToml reading.parse text <;> rfl

/-- **The lines of a site are read as what is written of it.** -/
theorem entry_siteEntries (site : SiteConfig) (enabled : Option Bool) :
    reading.entry (Utf8.encode ((siteEntries site).flatMap Toml.stringLine ++ enabledText enabled)) =
      .written { site with enabled := enabled.getD true } := by
  obtain ⟨hclean, hdirty⟩ := fromToml_siteEntries reading.readsFlat site enabled
  have hsame : ({ site with enabled := enabled.getD true } : SiteConfig).Clean ↔ site.Clean := Iff.rfl
  rw [entry_encode, SiteEntry.written]
  by_cases hsite : site.Clean
  · rw [if_pos (hsame.2 hsite), hclean hsite]
  · obtain ⟨e, he⟩ := hdirty hsite
    rw [if_neg (fun h => hsite (hsame.1 h)), he]

theorem entry_toggledText (site : SiteConfig) (enabled : Bool) :
    reading.entry (Utf8.encode (toggledText site enabled)) = .written { site with enabled := enabled } := by
  rw [toggledText_eq, entry_siteEntries]
  rfl

theorem entry_addedText (env : SiteEnv) (domain : Str) (opts : SiteAddOpts) (webrootBase : Bytes) (s : FileStore) :
    reading.entry (Utf8.encode (addedText env domain opts webrootBase s)) =
      .written ((siteHost env s).addedSite domain opts webrootBase) := by
  have htext : addedText env domain opts webrootBase s =
      (siteEntries ((siteHost env s).addedSite domain opts webrootBase)).flatMap Toml.stringLine ++
        enabledText none := by
    unfold addedText
    dsimp only
    rw [writeSiteToml_eq _ _ _ _ _ _ true, enabledText, Option.map_none, Option.getD_none, List.append_nil]
    rfl
  rw [htext, entry_siteEntries]
  rfl

/-! ## One command -/

theorem siteFileName_injective : Function.Injective siteFileName := by
  intro d d' h
  have hsame := congrArg Utf8.lossy h
  unfold siteFileName at hsame
  rw [Utf8.lossy_encode, Utf8.lossy_encode] at hsame
  exact List.append_cancel_right hsame

section

variable {reading : SiteReading} {s u : FileStore} {sitesDir : Bytes} {dir : List Bytes} {call : SiteCall}

theorem siteFile_of_plain (sitesDir : Bytes) (call : SiteCall) :
    siteFile sitesDir call.domain = push sitesDir (siteFileName call.domain) :=
  joinPath_of_isName sitesDir (isName_siteFileName call.plain.1)

/-- Where only the site's own file changes, only the domain's entry does. -/
theorem registry_of_frame {domain : Str}
    (h : ∀ p, p ≠ dir ++ [siteFileName domain] → u.fileAt p = s.fileAt p) :
    reading.registry dir u = Function.update (reading.registry dir s) domain (reading.registry dir u domain) := by
  funext other
  by_cases hsame : other = domain
  · rw [hsame, Function.update_self]
  · rw [Function.update_of_ne hsame]
    unfold registry
    rw [h]
    intro hplace
    exact hsame (siteFileName_injective (List.singleton_inj.1 (List.append_cancel_left hplace)))

/-- A command leaves a directory of files and all files but the site's own, and steps the registry as its outcome
says. -/
structure Refines (reading : SiteReading) (sitesDir : Bytes) (dir : List Bytes) (s : FileStore) (call : SiteCall) :
    Prop where
  holds : (reading.run sitesDir s call).store.HoldsFiles sitesDir dir
  frame : ∀ p, p ≠ dir ++ [siteFileName call.domain] →
    (reading.run sitesDir s call).store.fileAt p = s.fileAt p
  step : Registry.Step (reading.registry dir s) (call.domain, reading.outcome sitesDir s call)
    (reading.registry dir (reading.run sitesDir s call).store)

theorem refines_of_refused (h : s.HoldsFiles sitesDir dir) (hgrows : s.Grows u)
    (hrun : reading.run sitesDir s call = .refused u) : Refines reading sitesDir dir s call := by
  have houtcome : reading.outcome sitesDir s call = .refused := by
    unfold outcome
    rw [hrun]
    rfl
  have hsame : reading.registry dir u = Function.update (reading.registry dir s) call.domain
      (SiteOutcome.refused.apply (reading.registry dir s call.domain)) := by
    rw [SiteOutcome.apply, Function.update_eq_self]
    funext domain
    unfold registry
    rw [hgrows.fileAt]
  constructor
  · rw [hrun]
    exact h.grows hgrows
  · rw [hrun]
    exact fun p _ => hgrows.fileAt p
  · rw [houtcome, hrun]
    show Registry.Step _ _ (reading.registry dir u)
    rw [hsame]
    exact .whole trivial (by decide)

/-- A command that comes to its write: it says what it has done when the bytes are complete. -/
theorem refines_of_write (h : s.HoldsFiles sitesDir dir) (hgrows : s.Grows u) {bytes : Bytes}
    (hrun : reading.run sitesDir s call =
      .ofWrite u (u.write call.rights (siteFile sitesDir call.domain) bytes))
    (hallowed : u.write call.rights (siteFile sitesDir call.domain) bytes ≠ none →
      (reading.said s call).Allowed (reading.registry dir s call.domain))
    (hsaid : some (reading.entry bytes) = (reading.said s call).apply (reading.registry dir s call.domain)) :
    Refines reading sitesDir dir s call := by
  cases hwrite : u.write call.rights (siteFile sitesDir call.domain) bytes with
  | none =>
    rw [hwrite] at hrun
    exact refines_of_refused h hgrows hrun
  | some w =>
    have hallow := hallowed (by rw [hwrite]; exact Option.some_ne_none w)
    have hname := isName_siteFileName call.plain.1
    rw [hwrite] at hrun
    rw [siteFile_of_plain] at hwrite
    obtain ⟨hplace, hholds, written, hfile, hbytes⟩ := (h.grows hgrows).write_push hname hwrite
    have hframe : ∀ p, p ≠ dir ++ [siteFileName call.domain] → w.store.fileAt p = s.fileAt p := by
      intro p hp
      rw [FileStore.fileAt_of_write hwrite (hplace ▸ hp), hgrows.fileAt]
    have hentry : reading.registry dir w.store call.domain = some (reading.entry written) := by
      unfold registry
      rw [hfile]
      rfl
    constructor
    · rw [hrun]
      exact hholds
    · rw [hrun]
      exact hframe
    · unfold outcome
      rw [hrun]
      show Registry.Step _ _ (reading.registry dir w.store)
      rw [registry_of_frame hframe, hentry]
      unfold SiteRun.ofWrite
      dsimp only
      cases hcomplete : w.complete with
      | true =>
        rw [hbytes hcomplete, hsaid]
        exact .whole hallow (reading.said_ne_cut s call)
      | false => exact .cut _

/-- What is read of a site's file is the registry's entry. -/
theorem entry_of_read (h : s.HoldsFiles sitesDir dir) {text : Str}
    (hread : readSiteFile (reading.env call) call.domain sitesDir s = some text) :
    ∃ site, SiteConfig.fromToml reading.parse text = .ok site ∧
      reading.registry dir s call.domain = some (.site site) := by
  obtain ⟨htext, hparsed⟩ := Option.filter_eq_some_iff.1 hread
  obtain ⟨bytes, hbytes, hstr⟩ := Option.bind_eq_some_iff.1 htext
  rw [siteFile_of_plain] at hbytes
  obtain ⟨-, -, hfile⟩ := (h.read_push (isName_siteFileName call.plain.1)).1 hbytes
  have hentry : reading.registry dir s call.domain = some (reading.entry bytes) := by
    unfold registry
    rw [hfile]
    rfl
  cases hsite : SiteConfig.fromToml reading.parse text with
  | ok site =>
    refine ⟨site, rfl, ?_⟩
    rw [hentry, entry, hstr, Option.map_some, hsite]
  | error e =>
    have hnone : SiteConfig.fromToml (reading.env call).parse text = .error e := hsite
    rw [hnone] at hparsed
    cases hparsed

theorem refines_setEnabled (h : s.HoldsFiles sitesDir dir) {enabled : Bool}
    (hcommand : call.command = .setEnabled enabled) : Refines reading sitesDir dir s call := by
  have hrun : reading.run sitesDir s call = runSetEnabled (reading.env call) call.domain enabled sitesDir s := by
    unfold run
    rw [hcommand]
    rfl
  have htells : reading.said s call = .toggled enabled := by
    unfold said
    rw [hcommand]
  unfold runSetEnabled at hrun
  cases hread : readSiteFile (reading.env call) call.domain sitesDir s with
  | none =>
    rw [hread] at hrun
    exact refines_of_refused h (.refl s) hrun
  | some text =>
    rw [hread] at hrun
    obtain ⟨site, hsite, hentry⟩ := entry_of_read h hread
    refine refines_of_write h (.refl s) hrun (fun _ => ?_) ?_
    · rw [htells]
      exact ⟨site, hentry⟩
    · rw [htells, hentry, SiteOutcome.apply]
      show some (reading.entry (Utf8.encode (runSiteSetEnabled reading.parse text enabled))) = _
      rw [runSiteSetEnabled_of_ok hsite, entry_toggledText]

theorem refines_remove (h : s.HoldsFiles sitesDir dir) (hcommand : call.command = .remove) :
    Refines reading sitesDir dir s call := by
  have hrun : reading.run sitesDir s call = runSiteRemove (reading.env call) call.domain sitesDir s := by
    unfold run
    rw [hcommand]
    rfl
  unfold runSiteRemove at hrun
  split at hrun
  · exact refines_of_refused h (.refl s) hrun
  · cases hremove : s.removeFile (reading.env call).rights (siteFile sitesDir call.domain) with
    | none =>
      rw [hremove] at hrun
      exact refines_of_refused h (.refl s) hrun
    | some r =>
      obtain ⟨u, place⟩ := r
      rw [hremove] at hrun
      have houtcome : reading.outcome sitesDir s call = .removed := by
        unfold outcome said
        rw [hrun, hcommand]
      have hframe := (FileStore.removeFile_eq_some hremove).2.2
      rw [siteFile_of_plain] at hremove
      obtain ⟨rfl, hholds, hgone, hthere⟩ := h.removeFile_push (isName_siteFileName call.plain.1) hremove
      have hnone : reading.registry dir u call.domain = none := by
        unfold registry
        rw [hgone]
        rfl
      constructor
      · rw [hrun]
        exact hholds
      · rw [hrun]
        exact hframe
      · rw [houtcome, hrun]
        show Registry.Step _ _ (reading.registry dir u)
        rw [registry_of_frame hframe, hnone]
        refine .whole (fun hentry => hthere ?_) (by decide)
        exact Option.map_eq_none_iff.1 hentry

theorem refines_add (h : s.HoldsFiles sitesDir dir) {opts : SiteAddOpts} {webrootBase : Bytes}
    (hcommand : call.command = .add opts webrootBase) : Refines reading sitesDir dir s call := by
  have hrun : reading.run sitesDir s call =
      runSiteAdd (reading.env call) call.domain opts sitesDir webrootBase s := by
    unfold run
    rw [hcommand]
    rfl
  have htells : reading.said s call =
      .added ((siteHost (reading.env call) s).addedSite call.domain opts webrootBase) opts.force := by
    unfold said
    rw [hcommand]
  have hsites : s.Grows (madeSites (reading.env call) sitesDir s).1 := FileStore.grows_createDirAll sitesDir
  have hroot : s.Grows (madeRoot (reading.env call) call.domain opts sitesDir webrootBase s).1 :=
    hsites.trans (FileStore.grows_createDirAll _)
  rw [runSiteAdd_eq] at hrun
  split at hrun
  · exact refines_of_refused h hsites hrun
  · split at hrun
    · exact refines_of_refused h hsites hrun
    · rename_i hfree
      split at hrun
      · exact refines_of_refused h hroot hrun
      · refine refines_of_write h hroot hrun (fun hwrite => ?_) ?_
        · rw [htells]
          -- the path leads nowhere once the sites directory is made, or the command is forced
          rw [Bool.and_eq_true, not_and_or] at hfree
          obtain hnone | hforce := hfree
          · have hname := isName_siteFileName call.plain.1
            rw [siteFile_of_plain, (h.grows hsites).pathExists_push hname, not_and] at hnone
            refine .inl ?_
            have hpath := not_not.1 (hnone ?_)
            · unfold registry
              rw [← hsites.fileAt, FileStore.fileAt_eq_none (.inl hpath)]
              rfl
            · rw [← siteFile_of_plain]
              exact FileStore.isCString_of_write hwrite
          · rw [Bool.not_eq_true, Bool.not_eq_false'] at hforce
            exact .inr hforce
        · rw [htells, entry_addedText]
          rfl

variable (reading) in
/-- **A command does to the registry what its outcome says.** -/
theorem refines_step (h : s.HoldsFiles sitesDir dir) (call : SiteCall) : Refines reading sitesDir dir s call := by
  cases hcommand : call.command with
  | add opts webrootBase => exact refines_add h hcommand
  | remove => exact refines_remove h hcommand
  | setEnabled enabled => exact refines_setEnabled h hcommand

end

end SiteReading

/-! ## Whole runs -/

theorem SiteReading.runAll_refines (reading : SiteReading) {s : FileStore} {sitesDir : Bytes} {dir : List Bytes}
    (h : s.HoldsFiles sitesDir dir) (calls : List SiteCall) :
    (reading.runAll sitesDir s calls).HoldsFiles sitesDir dir ∧
      Runs.Run Registry.Step (reading.registry dir s) (reading.outcomes sitesDir s calls)
        (reading.registry dir (reading.runAll sitesDir s calls)) := by
  induction calls generalizing s with
  | nil => exact ⟨h, .nil _⟩
  | cons call calls ih =>
    have hstep := SiteReading.refines_step reading h call
    obtain ⟨hafter, hrest⟩ := ih hstep.holds
    exact ⟨hafter, .cons hstep.step hrest⟩

/-- **The site commands refine the registry**: every run of them on a directory of files is one of the registry, with
the outcomes that the commands report, and a domain whose writes were all complete has the entry that its own commands
made. -/
theorem commands_refine_registry (reading : SiteReading) {s : FileStore} {sitesDir : Bytes} {dir : List Bytes}
    (h : s.HoldsFiles sitesDir dir) (calls : List SiteCall) :
    (reading.runAll sitesDir s calls).HoldsFiles sitesDir dir ∧
      Runs.Run Registry.Step (reading.registry dir s) (reading.outcomes sitesDir s calls)
        (reading.registry dir (reading.runAll sitesDir s calls)) ∧
      ∀ domain, .cut ∉ ownOutcomes domain (reading.outcomes sitesDir s calls) →
        reading.registry dir (reading.runAll sitesDir s calls) domain =
          (ownOutcomes domain (reading.outcomes sitesDir s calls)).foldl SiteOutcome.apply
            (reading.registry dir s domain) := by
  have hrun := reading.runAll_refines h calls
  exact ⟨hrun.1, hrun.2, fun domain hwhole => entry_of_run hrun.2 hwhole⟩

/-! ## A blog and a shop -/

def sitesPlace : List Bytes := etcZaphyl ++ [Utf8.encode "sites".toList]

def hostedEntries : List (List Bytes × Node) :=
  [([Utf8.encode "etc".toList], .dir), (etcZaphyl, .dir), (sitesPlace, .dir), (mainConfig, .file),
    ([Utf8.encode "srv".toList], .dir), ([Utf8.encode "srv".toList, Utf8.encode "blog".toList], .dir)]

/-- An installation with the root of a blog. -/
def hosted : FileStore where
  tree := FileTree.ofEntries hostedEntries [] (by decide) rfl
  content _ := Utf8.encode "listen = \"0.0.0.0:80\"\n".toList

def flatReading : SiteReading := ⟨fun _ => false, parseFlat, parseFlat_readsFlat⟩

/-- A static site below a root. -/
def addAt (root : String) : SiteCommand :=
  .add ⟨some (Utf8.encode root.toList), none, false, true, false, false⟩ (Utf8.encode "/var/www".toList)

theorem directChild_blog : DirectChild "blog.test".toList := by decide

theorem directChild_shop : DirectChild "shop.test".toList := by decide

/-- A blog is added and disabled, a shop is added and removed twice. -/
def hostedCalls : List SiteCall :=
  [⟨rootEnv.rights, "blog.test".toList, addAt "/srv/blog", directChild_blog⟩,
    ⟨rootEnv.rights, "shop.test".toList, addAt "/srv/shop", directChild_shop⟩,
    ⟨rootEnv.rights, "blog.test".toList, .setEnabled false, directChild_blog⟩,
    ⟨rootEnv.rights, "shop.test".toList, .remove, directChild_shop⟩,
    ⟨rootEnv.rights, "shop.test".toList, .remove, directChild_shop⟩]

def hostedSite (name : String) (enabled : Bool) : SiteConfig :=
  ⟨(name ++ ".test").toList, ("/srv/" ++ name).toList, .static, .off, none, none, enabled⟩

theorem hosted_node_none (name : Bytes) : hosted.tree.node (sitesPlace ++ [name]) = none := by
  by_contra hnode
  have hentry : FileTree.entryAt hostedEntries (sitesPlace ++ [name]) ≠ none := hnode
  have hlength : ∀ e ∈ hostedEntries, e.1.length ≤ 3 := by decide
  obtain ⟨e, he, hplace⟩ := FileTree.mem_of_entryAt hentry
  have hlong := hlength e he
  rw [hplace, List.length_append] at hlong
  exact absurd hlong (by show ¬ 3 + 1 ≤ 3; decide)

theorem hosted_holdsFiles : hosted.HoldsFiles sitesPath sitesPlace := by
  refine ⟨by decide, by decide, fun {name kind} hnode => ?_⟩
  rw [hosted_node_none] at hnode
  cases hnode

theorem commands_refine_registry_hosted :
    flatReading.outcomes sitesPath hosted hostedCalls =
        [("blog.test".toList, .added (hostedSite "blog" true) false),
          ("shop.test".toList, .added (hostedSite "shop" true) false), ("blog.test".toList, .toggled false),
          ("shop.test".toList, .removed), ("shop.test".toList, .refused)] ∧
      flatReading.registry sitesPlace (flatReading.runAll sitesPath hosted hostedCalls) "blog.test".toList =
        some (.site (hostedSite "blog" false)) ∧
      flatReading.registry sitesPlace (flatReading.runAll sitesPath hosted hostedCalls) "shop.test".toList = none := by
  have houtcomes : flatReading.outcomes sitesPath hosted hostedCalls =
      [("blog.test".toList, .added (hostedSite "blog" true) false),
        ("shop.test".toList, .added (hostedSite "shop" true) false), ("blog.test".toList, .toggled false),
        ("shop.test".toList, .removed), ("shop.test".toList, .refused)] := by
    decide +kernel
  obtain ⟨-, -, hentry⟩ := commands_refine_registry flatReading hosted_holdsFiles hostedCalls
  rw [houtcomes] at hentry
  refine ⟨houtcomes, ?_, ?_⟩
  · rw [hentry "blog.test".toList (by decide)]
    decide
  · rw [hentry "shop.test".toList (by decide)]
    decide

end Zaphyl
