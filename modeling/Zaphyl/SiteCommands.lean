import Zaphyl.Acme
import Zaphyl.FileStore
import Zaphyl.SiteFiles
/-!
# SiteCommands — the files that site commands touch

The commands join a domain to the sites directory unchecked and let the system follow what stands there.  They touch the
site's own file alone exactly when, on coming to their write or removal, the domain has no slash and a file that is
written is no symbolic link (`site_confined_iff`).
-/
namespace Zaphyl

open UnixPath

inductive ExitCode
  | success
  | failure
deriving DecidableEq

/-- What a command depends on besides the files. -/
structure SiteEnv where
  rights : Rights
  parsesAsIp : Str → Bool
  parse : Str → Except Str SiteConfig

/-- The files after a command, the places of those it opened for writing or removed, and how it exits. -/
structure SiteRun where
  store : FileStore
  touched : List (List Bytes)
  exit : ExitCode

namespace SiteRun

def refused (s : FileStore) : SiteRun := ⟨s, [], .failure⟩

/-- The end of a command with a write. -/
def ofWrite (s : FileStore) : Option FileStore.Written → SiteRun
  | none => refused s
  | some w => ⟨w.store, [w.place], if w.complete then .success else .failure⟩

end SiteRun

/-! ## The commands -/

def siteFileName (domain : Str) : Bytes := Utf8.encode (domain ++ ".toml".toList)

def siteFile (sitesDir : Bytes) (domain : Str) : Bytes := joinPath sitesDir (siteFileName domain)

/-- What `site add` meets at its start. -/
def siteHost (env : SiteEnv) (s : FileStore) : SiteHost where
  pathExists := s.pathExists
  isDir := s.isDir
  createDirAll path := (s.createDirAll env.rights path).2
  write path := (s.opened env.rights path).isSome
  parsesAsIp := env.parsesAsIp

def runSiteAdd (env : SiteEnv) (domain : Str) (opts : SiteAddOpts) (sitesDir webrootBase : Bytes) (s : FileStore) :
    SiteRun :=
  let root := SiteHost.webRoot domain opts webrootBase
  let (kind, servedRoot, tlsOff) := (siteHost env s).siteToAdd domain opts root
  let sites := s.createDirAll env.rights sitesDir
  if !sites.2 then .refused sites.1
  else if sites.1.pathExists (siteFile sitesDir domain) && !opts.force then .refused sites.1
  else
    let roots := sites.1.createDirAll env.rights root
    if !roots.2 then .refused roots.1
    else
      .ofWrite roots.1 (roots.1.write env.rights (siteFile sitesDir domain)
        (Utf8.encode (writeSiteToml domain servedRoot kind tlsOff opts.app none)))

/-- The files once `site add` has made the sites directory, and whether it is made. -/
def madeSites (env : SiteEnv) (sitesDir : Bytes) (s : FileStore) : FileStore × Bool := s.createDirAll env.rights sitesDir

/-- The same once it has made the web root behind that. -/
def madeRoot (env : SiteEnv) (domain : Str) (opts : SiteAddOpts) (sitesDir webrootBase : Bytes) (s : FileStore) :
    FileStore × Bool :=
  (madeSites env sitesDir s).1.createDirAll env.rights (SiteHost.webRoot domain opts webrootBase)

/-- The text that `site add` writes. -/
def addedText (env : SiteEnv) (domain : Str) (opts : SiteAddOpts) (webrootBase : Bytes) (s : FileStore) : Str :=
  let (kind, servedRoot, tlsOff) := (siteHost env s).siteToAdd domain opts (SiteHost.webRoot domain opts webrootBase)
  writeSiteToml domain servedRoot kind tlsOff opts.app none

def runSiteRemove (env : SiteEnv) (domain : Str) (sitesDir : Bytes) (s : FileStore) : SiteRun :=
  if !s.pathExists (siteFile sitesDir domain) then .refused s
  else
    match s.removeFile env.rights (siteFile sitesDir domain) with
    | none => .refused s
    | some (u, place) => ⟨u, [place], .success⟩

/-- The text of the site file, when it can be read and parsed. -/
def readSiteFile (env : SiteEnv) (domain : Str) (sitesDir : Bytes) (s : FileStore) : Option Str :=
  ((s.read env.rights (siteFile sitesDir domain)).bind readToString).filter (fun body =>
    match SiteConfig.fromToml env.parse body with
    | .ok _ => true
    | .error _ => false)

/-- `run_site_set_enabled`. -/
def runSetEnabled (env : SiteEnv) (domain : Str) (enabled : Bool) (sitesDir : Bytes) (s : FileStore) : SiteRun :=
  match readSiteFile env domain sitesDir s with
  | none => .refused s
  | some body =>
    .ofWrite s (s.write env.rights (siteFile sitesDir domain)
      (Utf8.encode (runSiteSetEnabled env.parse body enabled)))

inductive SiteCommand
  | add (opts : SiteAddOpts) (webrootBase : Bytes)
  | remove
  | setEnabled (enabled : Bool)

namespace SiteCommand

variable (env : SiteEnv) (domain : Str) (sitesDir : Bytes)

def run (s : FileStore) : SiteCommand → SiteRun
  | add opts webrootBase => runSiteAdd env domain opts sitesDir webrootBase s
  | remove => runSiteRemove env domain sitesDir s
  | setEnabled enabled => runSetEnabled env domain enabled sitesDir s

/-- The files when a command comes to its write or removal: `site add` has made the directories. -/
def prepared (s : FileStore) : SiteCommand → FileStore
  | add opts webrootBase => (madeRoot env domain opts sitesDir webrootBase s).1
  | remove => s
  | setEnabled _ => s

/-- A command comes to its write or removal, and the system lets it. -/
def Reaches (s : FileStore) : SiteCommand → Prop
  | add opts webrootBase =>
    (madeSites env sitesDir s).2 = true ∧
      ((madeSites env sitesDir s).1.pathExists (siteFile sitesDir domain) = true → opts.force = true) ∧
      (madeRoot env domain opts sitesDir webrootBase s).2 = true ∧
      (madeRoot env domain opts sitesDir webrootBase s).1.opened env.rights (siteFile sitesDir domain) ≠ none
  | remove =>
    s.pathExists (siteFile sitesDir domain) = true ∧ s.removeFile env.rights (siteFile sitesDir domain) ≠ none
  | setEnabled _ =>
    readSiteFile env domain sitesDir s ≠ none ∧ s.opened env.rights (siteFile sitesDir domain) ≠ none

end SiteCommand

/-- The name of a domain's site file is one that a file of the sites directory can have. -/
def DirectChild (domain : Str) : Prop := '/' ∉ domain ∧ '\x00' ∉ domain

/-- **A command touches no file but the site's own**, and none for a domain whose file name is no name. -/
structure Confined (env : SiteEnv) (domain : Str) (sitesDir : Bytes) (s : FileStore) (cmd : SiteCommand) : Prop where
  frame : ∀ p, p ∉ (cmd.run env domain sitesDir s).touched → (cmd.run env domain sitesDir s).store.fileAt p = s.fileAt p
  own : ∀ place ∈ (cmd.run env domain sitesDir s).touched, ∃ dir,
    (cmd.prepared env domain sitesDir s).tree.base sitesDir = some dir ∧ place = dir ++ [siteFileName domain]
  refused : ¬ DirectChild domain →
    (cmd.run env domain sitesDir s).exit = .failure ∧ (cmd.run env domain sitesDir s).touched = []

/-! ## The name of a site file -/

theorem siteFileName_eq (domain : Str) : siteFileName domain = Utf8.encode domain ++ Utf8.encode ".toml".toList :=
  List.flatMap_append

theorem slash_mem_siteFileName_iff (domain : Str) : slash ∈ siteFileName domain ↔ '/' ∈ domain := by
  have hslash : slash ∈ Utf8.encode domain ↔ '/' ∈ domain := Utf8.ascii_mem_encode (c := '/') (by decide) domain
  have hext : slash ∉ Utf8.encode ".toml".toList := by decide
  rw [siteFileName_eq, List.mem_append, hslash]
  exact or_iff_left hext

theorem zero_mem_siteFileName {domain : Str} (h : '\x00' ∈ domain) : 0 ∈ siteFileName domain := by
  have hzero : (0 : UInt8) ∈ Utf8.encode domain ↔ '\x00' ∈ domain := Utf8.ascii_mem_encode (c := '\x00') (by decide) domain
  rw [siteFileName_eq]
  exact List.mem_append_left _ (hzero.2 h)

/-- Without a slash it is a name, since it has five characters at least. -/
theorem isName_siteFileName {domain : Str} (h : '/' ∉ domain) : IsName (siteFileName domain) := by
  have hlen : 5 ≤ (siteFileName domain).length := by
    rw [siteFileName_eq, List.length_append]
    exact Nat.le_add_left 5 _
  refine ⟨?_, fun hslash => h ((slash_mem_siteFileName_iff domain).1 hslash), ?_, ?_⟩
  · intro heq
    rw [heq] at hlen
    exact absurd hlen (by decide)
  · intro heq
    rw [heq] at hlen
    exact absurd hlen (by decide)
  · intro heq
    rw [heq] at hlen
    exact absurd hlen (by decide)

/-- A name is joined to the sites directory as it is pushed onto it. -/
theorem joinPath_of_isName (base : Bytes) {name : Bytes} (h : IsName name) : joinPath base name = push base name := by
  have hhead : name.head? ≠ some 47 := fun hs => h.not_slash (List.mem_of_mem_head? hs)
  unfold joinPath push
  rw [if_neg hhead]
  simp only [Bool.or_eq_true, decide_eq_true_eq]
  rfl

theorem subset_joinPath (base name : Bytes) : name ⊆ joinPath base name := by
  unfold joinPath
  split
  · exact List.Subset.refl name
  · split
    · exact List.subset_append_right base name
    · exact fun b hb => List.mem_append_right base (List.mem_cons_of_mem _ hb)

theorem runSiteAdd_eq (env : SiteEnv) (domain : Str) (opts : SiteAddOpts) (sitesDir webrootBase : Bytes)
    (s : FileStore) : runSiteAdd env domain opts sitesDir webrootBase s =
    if !(madeSites env sitesDir s).2 then .refused (madeSites env sitesDir s).1
    else if (madeSites env sitesDir s).1.pathExists (siteFile sitesDir domain) && !opts.force then
      .refused (madeSites env sitesDir s).1
    else if !(madeRoot env domain opts sitesDir webrootBase s).2 then
      .refused (madeRoot env domain opts sitesDir webrootBase s).1
    else .ofWrite (madeRoot env domain opts sitesDir webrootBase s).1
      ((madeRoot env domain opts sitesDir webrootBase s).1.write env.rights (siteFile sitesDir domain)
        (Utf8.encode (addedText env domain opts webrootBase s))) := rfl

/-! ## What a command does -/

namespace SiteCommand

variable {env : SiteEnv} {domain : Str} {sitesDir : Bytes} {s : FileStore}

theorem fileAt_prepared (cmd : SiteCommand) (p : List Bytes) :
    (cmd.prepared env domain sitesDir s).fileAt p = s.fileAt p := by
  cases cmd with
  | add opts webrootBase =>
    exact (FileStore.fileAt_createDirAll _ p).trans (FileStore.fileAt_createDirAll _ p)
  | remove => rfl
  | setEnabled enabled => rfl

/-- The place that a command's call acts on: a removal's entry, or the one that a write opens. -/
def ActsOn (cmd : SiteCommand) (u : FileStore) (path : Bytes) (place : List Bytes) : Prop :=
  match cmd with
  | remove => ∃ slot, u.tree.unlinkSlot path = some slot ∧ slot.place = place
  | add _ _ => ∃ slot, u.tree.openSlot path = some slot ∧ slot.place = place
  | setEnabled _ => ∃ slot, u.tree.openSlot path = some slot ∧ slot.place = place

/-- A command comes to its call, and touches the place of that alone. -/
structure Touches (env : SiteEnv) (domain : Str) (sitesDir : Bytes) (s : FileStore) (cmd : SiteCommand)
    (place : List Bytes) : Prop where
  reaches : cmd.Reaches env domain sitesDir s
  touched : (cmd.run env domain sitesDir s).touched = [place]
  acts : cmd.ActsOn (cmd.prepared env domain sitesDir s) (siteFile sitesDir domain) place
  path : FileStore.IsCString (siteFile sitesDir domain)
  frame : ∀ p, p ≠ place → (cmd.run env domain sitesDir s).store.fileAt p = s.fileAt p

/-- A command fails and touches nothing. -/
structure Fails (env : SiteEnv) (domain : Str) (sitesDir : Bytes) (s : FileStore) (cmd : SiteCommand) : Prop where
  reaches : ¬ cmd.Reaches env domain sitesDir s
  touched : (cmd.run env domain sitesDir s).touched = []
  exit : (cmd.run env domain sitesDir s).exit = .failure
  frame : ∀ p, (cmd.run env domain sitesDir s).store.fileAt p = s.fileAt p

section

variable {env : SiteEnv} {domain : Str} {sitesDir : Bytes} {s : FileStore} {cmd : SiteCommand}

theorem fails_of_refused {u : FileStore} (hreaches : ¬ cmd.Reaches env domain sitesDir s)
    (hrun : cmd.run env domain sitesDir s = .refused u) (hframe : ∀ p, u.fileAt p = s.fileAt p) :
    Fails env domain sitesDir s cmd := by
  constructor
  · exact hreaches
  · rw [hrun]
    rfl
  · rw [hrun]
    rfl
  · rw [hrun]
    exact hframe

/-- A command that ends with a write fails or touches the entry that the write opens. -/
theorem cases_of_write (bytes : Bytes)
    (hrun : cmd.run env domain sitesDir s = .ofWrite (cmd.prepared env domain sitesDir s)
      ((cmd.prepared env domain sitesDir s).write env.rights (siteFile sitesDir domain) bytes))
    (hreaches : cmd.Reaches env domain sitesDir s ↔
      (cmd.prepared env domain sitesDir s).opened env.rights (siteFile sitesDir domain) ≠ none)
    (hacts : ∀ u path place, cmd.ActsOn u path place ↔ ∃ slot, u.tree.openSlot path = some slot ∧ slot.place = place) :
    Fails env domain sitesDir s cmd ∨ ∃ place, Touches env domain sitesDir s cmd place := by
  have hprepared := @fileAt_prepared env domain sitesDir s cmd
  cases hopened : (cmd.prepared env domain sitesDir s).opened env.rights (siteFile sitesDir domain) with
  | none =>
    rw [FileStore.write_eq_none hopened] at hrun
    exact .inl (fails_of_refused (fun h => hreaches.1 h hopened) hrun hprepared)
  | some slot =>
    obtain ⟨w, hwrite, hplace, hframe⟩ := FileStore.write_spec hopened bytes
    obtain ⟨hpath, hslot, -⟩ := FileStore.opened_eq_some hopened
    rw [hwrite] at hrun
    refine .inr ⟨slot.place, ?_, ?_, (hacts _ _ _).2 ⟨slot, hslot, rfl⟩, hpath, fun p hp => ?_⟩
    · rw [hreaches, hopened]
      exact Option.some_ne_none slot
    · rw [hrun, ← hplace]
      rfl
    · rw [hrun]
      exact (hframe p hp).trans (hprepared p)

end

section

variable (env : SiteEnv) (domain : Str) (sitesDir : Bytes) (s : FileStore)

theorem remove_cases : Fails env domain sitesDir s remove ∨ ∃ place, Touches env domain sitesDir s remove place := by
  have hrun : run env domain sitesDir s remove = if !s.pathExists (siteFile sitesDir domain) then .refused s
    else
      match s.removeFile env.rights (siteFile sitesDir domain) with
      | none => .refused s
      | some (u, place) => ⟨u, [place], .success⟩ := rfl
  cases hexists : s.pathExists (siteFile sitesDir domain) with
  | false =>
    rw [hexists] at hrun
    exact .inl (fails_of_refused (fun h => absurd (hexists.symm.trans h.1) (by decide)) hrun (fun _ => rfl))
  | true =>
    rw [hexists] at hrun
    cases hremove : s.removeFile env.rights (siteFile sitesDir domain) with
    | none =>
      rw [hremove] at hrun
      exact .inl (fails_of_refused (fun h => h.2 hremove) hrun (fun _ => rfl))
    | some r =>
      obtain ⟨u, place⟩ := r
      rw [hremove] at hrun
      obtain ⟨hpath, hacts, hframe⟩ := FileStore.removeFile_eq_some hremove
      refine .inr ⟨place, ⟨hexists, by rw [hremove]; exact Option.some_ne_none _⟩, ?_, hacts, hpath, ?_⟩
      · rw [hrun]
        rfl
      · rw [hrun]
        exact hframe

theorem setEnabled_cases (enabled : Bool) : Fails env domain sitesDir s (setEnabled enabled) ∨
    ∃ place, Touches env domain sitesDir s (setEnabled enabled) place := by
  cases hread : readSiteFile env domain sitesDir s with
  | none =>
    have hrun : run env domain sitesDir s (setEnabled enabled) = .refused s := by
      show runSetEnabled env domain enabled sitesDir s = .refused s
      rw [runSetEnabled, hread]
    exact .inl (fails_of_refused (fun h => h.1 hread) hrun (fun _ => rfl))
  | some body =>
    have hreaches : Reaches env domain sitesDir s (setEnabled enabled) ↔
        s.opened env.rights (siteFile sitesDir domain) ≠ none := by
      show readSiteFile env domain sitesDir s ≠ none ∧ _ ↔ _
      rw [hread]
      exact and_iff_right (Option.some_ne_none body)
    refine cases_of_write (Utf8.encode (runSiteSetEnabled env.parse body enabled)) ?_ hreaches (fun _ _ _ => Iff.rfl)
    show runSetEnabled env domain enabled sitesDir s = _
    rw [runSetEnabled, hread]
    rfl

theorem add_cases (opts : SiteAddOpts) (webrootBase : Bytes) : Fails env domain sitesDir s (add opts webrootBase) ∨
    ∃ place, Touches env domain sitesDir s (add opts webrootBase) place := by
  have hsites := @FileStore.fileAt_createDirAll env.rights s sitesDir
  have hprepared := @fileAt_prepared env domain sitesDir s (add opts webrootBase)
  have hrun : run env domain sitesDir s (add opts webrootBase) = _ := runSiteAdd_eq env domain opts sitesDir webrootBase s
  split at hrun
  · rename_i hmade
    refine .inl (fails_of_refused (fun h => ?_) hrun hsites)
    rw [h.1] at hmade
    cases hmade
  · rename_i hmade
    rw [Bool.not_eq_true, Bool.not_eq_false'] at hmade
    split at hrun
    · rename_i hthere
      refine .inl (fails_of_refused (fun h => ?_) hrun hsites)
      rw [Bool.and_eq_true] at hthere
      rw [h.2.1 hthere.1] at hthere
      exact absurd hthere.2 (by decide)
    · rename_i hfree
      split at hrun
      · rename_i hroot
        refine .inl (fails_of_refused (fun h => ?_) hrun hprepared)
        rw [h.2.2.1] at hroot
        cases hroot
      · rename_i hroot
        rw [Bool.not_eq_true, Bool.not_eq_false'] at hroot
        refine cases_of_write _ hrun ⟨fun h => h.2.2.2, fun h => ⟨hmade, fun hthere => ?_, hroot, h⟩⟩
          (fun _ _ _ => Iff.rfl)
        cases hforce : opts.force with
        | true => rfl
        | false =>
          rw [hthere, hforce] at hfree
          exact absurd rfl hfree

/-- **A command fails and touches nothing, or comes to its call and touches the place of that.** -/
theorem run_cases (cmd : SiteCommand) :
    Fails env domain sitesDir s cmd ∨ ∃ place, Touches env domain sitesDir s cmd place := by
  cases cmd with
  | add opts webrootBase => exact add_cases env domain sitesDir s opts webrootBase
  | remove => exact remove_cases env domain sitesDir s
  | setEnabled enabled => exact setEnabled_cases env domain sitesDir s enabled

end

end SiteCommand

/-! ## Confinement -/

open SiteCommand (run_cases Touches Fails)

/-- Without a slash in the domain, a call acts on the site's entry unless it writes through a link. -/
theorem own_iff {cmd : SiteCommand} {u : FileStore} {domain : Str} {sitesDir : Bytes} {place : List Bytes}
    (hdomain : '/' ∉ domain) (hacts : cmd.ActsOn u (siteFile sitesDir domain) place) :
    (∃ dir, u.tree.base sitesDir = some dir ∧ place = dir ++ [siteFileName domain]) ↔
      cmd = .remove ∨ u.tree.isSymlink (siteFile sitesDir domain) = false := by
  have hname := isName_siteFileName hdomain
  have hpath : siteFile sitesDir domain = push sitesDir (siteFileName domain) := joinPath_of_isName sitesDir hname
  rw [hpath] at hacts ⊢
  have hopen : (∃ slot, u.tree.openSlot (push sitesDir (siteFileName domain)) = some slot ∧ slot.place = place) →
      ((∃ dir, u.tree.base sitesDir = some dir ∧ place = dir ++ [siteFileName domain]) ↔
        u.tree.isSymlink (push sitesDir (siteFileName domain)) = false) := by
    rintro ⟨slot, hslot, rfl⟩
    exact u.tree.openSlot_push hname hslot
  cases cmd with
  | remove =>
    obtain ⟨slot, hslot, rfl⟩ := hacts
    exact iff_of_true (u.tree.unlinkSlot_push hname hslot) (.inl rfl)
  | add opts webrootBase =>
    rw [hopen hacts]
    exact ⟨.inr, fun h => h.resolve_left (fun h => by cases h)⟩
  | setEnabled enabled =>
    rw [hopen hacts]
    exact ⟨.inr, fun h => h.resolve_left (fun h => by cases h)⟩

/-- **A site command touches its own file alone, exactly when on coming to its call the domain has no slash, and a file
that it writes is no link.** -/
theorem site_confined_iff (env : SiteEnv) (domain : Str) (sitesDir : Bytes) (s : FileStore) (cmd : SiteCommand) :
    Confined env domain sitesDir s cmd ↔
      (cmd.Reaches env domain sitesDir s → '/' ∉ domain ∧
        (cmd = .remove ∨ (cmd.prepared env domain sitesDir s).tree.isSymlink (siteFile sitesDir domain) = false)) := by
  obtain hfails | ⟨place, htouches⟩ := run_cases env domain sitesDir s cmd
  · refine iff_of_true ⟨fun p _ => hfails.frame p, ?_, fun _ => ⟨hfails.exit, hfails.touched⟩⟩
      (fun h => absurd h hfails.reaches)
    rw [hfails.touched]
    exact fun place h => nomatch h
  · constructor
    · intro h _
      have hdomain : '/' ∉ domain := by
        intro hslash
        have hnone := (h.refused (fun hchild => hchild.1 hslash)).2
        rw [htouches.touched] at hnone
        cases hnone
      refine ⟨hdomain, (own_iff hdomain htouches.acts).1 ?_⟩
      apply h.own
      rw [htouches.touched]
      exact List.mem_singleton.2 rfl
    · intro h
      obtain ⟨hdomain, hentry⟩ := h htouches.reaches
      constructor
      · intro p hp
        rw [htouches.touched, List.mem_singleton] at hp
        exact htouches.frame p hp
      · intro p hp
        rw [htouches.touched, List.mem_singleton] at hp
        rw [hp]
        exact (own_iff hdomain htouches.acts).2 hentry
      · -- a domain with a zero byte does not come so far
        intro hchild
        exact absurd ⟨hdomain, fun hzero =>
          htouches.path (subset_joinPath sitesDir _ (zero_mem_siteFileName hzero))⟩ hchild

/-! ## The main configuration file -/

def etcZaphyl : List Bytes := [Utf8.encode "etc".toList, Utf8.encode "zaphyl".toList]

def mainConfig : List Bytes := etcZaphyl ++ [Utf8.encode "zaphyl.toml".toList]

/-- The directories of an installation, and its main configuration file. -/
def installed : FileStore where
  tree := FileTree.ofEntries
    [([Utf8.encode "etc".toList], .dir), (etcZaphyl, .dir), (etcZaphyl ++ [Utf8.encode "sites".toList], .dir),
      (mainConfig, .file)] [] (by decide) rfl
  content _ := Utf8.encode "listen = \"0.0.0.0:80\"\n".toList

/-- An environment in which everything is permitted. -/
def rootEnv : SiteEnv := ⟨⟨fun _ => true, fun _ => true, fun _ => .done, fun _ => true⟩, fun _ => false, fun _ => .error []⟩

def sitesPath : Bytes := Utf8.encode "/etc/zaphyl/sites".toList

/-- **`site remove ../zaphyl` removes the main configuration file.** -/
theorem remove_takes_main_config :
    (SiteCommand.remove.run rootEnv "../zaphyl".toList sitesPath installed).exit = .success ∧
      (SiteCommand.remove.run rootEnv "../zaphyl".toList sitesPath installed).touched = [mainConfig] ∧
      installed.fileAt mainConfig ≠ none ∧
      (SiteCommand.remove.run rootEnv "../zaphyl".toList sitesPath installed).store.fileAt mainConfig = none ∧
      ¬ Confined rootEnv "../zaphyl".toList sitesPath installed .remove := by
  have hexit : (SiteCommand.remove.run rootEnv "../zaphyl".toList sitesPath installed).exit = .success := by decide
  refine ⟨hexit, by decide, by decide, by decide, ?_⟩
  intro h
  have hrefused := (h.refused (fun hchild => hchild.1 (by decide))).1
  rw [hexit] at hrefused
  cases hrefused

end Zaphyl
