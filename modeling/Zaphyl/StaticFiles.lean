import Zaphyl.FileTree
import Zaphyl.Pipelines
/-!
# StaticFiles — a request path to a file below a root

The path is decoded, by a decoder that stands for a crate's, its names are pushed onto the root, and what that leads to
must lie below the canonical root.  No path with a `..` leads anywhere, only regular files below the root are found, and
every one that names lead to is found by any percent-encoding of them (`resolve_within_root`).
-/
namespace Zaphyl

open UnixPath

structure StaticDir where
  root : PathBuf

/-- `decode_utf8` of the decoded bytes. -/
def decodeUtf8 (bytes : Bytes) : Option Bytes := if Utf8.encode (Utf8.lossy bytes) = bytes then some bytes else none

/-- The components pushed onto the path: a `..` is no candidate. -/
def pushComponents : PathBuf → List Component → Option PathBuf
  | candidate, [] => some candidate
  | candidate, .normal part :: rest => pushComponents (push candidate part) rest
  | candidate, .curDir :: rest => pushComponents candidate rest
  | candidate, .rootDir :: rest => pushComponents candidate rest
  | _, .parentDir :: _ => none

def indexHtml : Bytes := Utf8.encode "index.html".toList

namespace StaticDir

def resolve (fs : FileSystem) (decoder : PercentDecoder) (dir : StaticDir) (requestPath : Str) : Option PathBuf := do
  let decoded ← decodeUtf8 (decoder.decode (Utf8.encode requestPath))
  let candidate ← pushComponents dir.root (components decoded)
  let candidate := if fs.isDir candidate then push candidate indexHtml else candidate
  let real ← fs.canonicalize candidate
  let root ← fs.canonicalize dir.root
  if startsWith real root && fs.isFile real then some real else none

end StaticDir

/-! ## Candidates -/

theorem pushComponents_parentDir {components : List Component} (h : .parentDir ∈ components) (root : PathBuf) :
    pushComponents root components = none := by
  induction components generalizing root with
  | nil => cases h
  | cons c rest ih =>
    rcases List.mem_cons.1 h with rfl | hrest
    · rfl
    · cases c with
      | parentDir => rfl
      | normal part => exact ih hrest _
      | curDir => exact ih hrest _
      | rootDir => exact ih hrest _

theorem pushComponents_normal (names : List Bytes) (root : PathBuf) :
    pushComponents root (names.map .normal) = some (names.foldl push root) := by
  induction names generalizing root with
  | nil => rfl
  | cons n names ih => exact ih (push root n)

theorem decodeUtf8_of_valid {bytes : Bytes} (h : Utf8.Valid bytes) : decodeUtf8 bytes = some bytes :=
  if_pos (Utf8.encode_lossy h)

theorem decodeUtf8_eq_some {bytes decoded : Bytes} (h : decodeUtf8 bytes = some decoded) : decoded = bytes := by
  unfold decodeUtf8 at h
  split at h
  · exact (Option.some.inj h).symm
  · cases h

theorem valid_slash_cons {bytes : Bytes} (h : Utf8.Valid bytes) : Utf8.Valid (slash :: bytes) := by
  obtain ⟨s, rfl⟩ := h
  exact ⟨'/' :: s, Utf8.encode_cons '/' s⟩

theorem valid_append {a b : Bytes} (ha : Utf8.Valid a) (hb : Utf8.Valid b) : Utf8.Valid (a ++ b) := by
  obtain ⟨s, rfl⟩ := ha
  obtain ⟨t, rfl⟩ := hb
  exact ⟨s ++ t, List.flatMap_append⟩

theorem valid_relative {names : List Bytes} (h : ∀ n ∈ names, Utf8.Valid n) : Utf8.Valid (relative names) := by
  induction names with
  | nil => exact ⟨[], rfl⟩
  | cons n names ih =>
    have hn := h n List.mem_cons_self
    unfold relative at ih ⊢
    by_cases hnil : names = []
    · subst hnil
      rwa [List.intercalate_singleton]
    · rw [List.intercalate_cons_of_ne_nil hnil]
      exact valid_append (valid_append hn (valid_slash_cons ⟨[], rfl⟩))
        (ih (fun m hm => h m (List.mem_cons_of_mem _ hm)))

/-! ## Resolution -/

namespace StaticDir

variable (fs : FileSystem) (decoder : PercentDecoder) (dir : StaticDir)

/-- A path with a `..` anywhere resolves to nothing. -/
theorem resolve_of_parent {requestPath : Str}
    (h : [dot, dot] ∈ (decoder.decode (Utf8.encode requestPath)).splitOn slash) :
    dir.resolve fs decoder requestPath = none := by
  have hparent : Component.parentDir ∈ components (decoder.decode (Utf8.encode requestPath)) :=
    List.mem_append_right _ (List.mem_filterMap.2 ⟨_, h, ofPiece_eq_parentDir_iff.2 rfl⟩)
  unfold resolve
  cases hdecoded : decodeUtf8 (decoder.decode (Utf8.encode requestPath)) with
  | none => rfl
  | some decoded =>
    rw [decodeUtf8_eq_some hdecoded, Option.bind_eq_bind, Option.bind_some, pushComponents_parentDir hparent]
    rfl

/-- What a path resolves to is a regular file, canonical, below the canonical root. -/
theorem resolve_eq_some {requestPath : Str} {p : PathBuf} (h : dir.resolve fs decoder requestPath = some p) :
    fs.isFile p = true ∧ fs.canonicalize p = some p ∧
      ∃ root, fs.canonicalize dir.root = some root ∧ startsWith p root = true := by
  unfold resolve at h
  obtain ⟨decoded, -, h⟩ := Option.bind_eq_some_iff.1 h
  obtain ⟨candidate, -, h⟩ := Option.bind_eq_some_iff.1 h
  obtain ⟨real, hreal, h⟩ := Option.bind_eq_some_iff.1 h
  obtain ⟨root, hroot, h⟩ := Option.bind_eq_some_iff.1 h
  split at h
  · rename_i hinside
    rw [Bool.and_eq_true] at hinside
    rw [← Option.some.inj h]
    exact ⟨hinside.2, fs.canonicalize_canonicalize hreal, root, hroot, hinside.1⟩
  · cases h

/-- A file that names lead to is found by any percent-encoding of the names. -/
theorem resolve_of_reaches {names : List Bytes} {root : PathBuf} (hroot : fs.canonicalize dir.root = some root)
    (hreaches : fs.Reaches dir.root names) (hvalid : ∀ n ∈ names, Utf8.Valid n) {requestPath : Str}
    (hencodes : Encodes (relative names) (Utf8.encode requestPath) ∨
      Encodes (slash :: relative names) (Utf8.encode requestPath)) :
    dir.resolve fs decoder requestPath = some (names.foldl push root) := by
  have hnames := hreaches.isName
  have hcomponents := components_relative hreaches.ne_nil hnames
  have hcandidate : ∃ decoded, decodeUtf8 (decoder.decode (Utf8.encode requestPath)) = some decoded ∧
      pushComponents dir.root (components decoded) = some (names.foldl push dir.root) := by
    rcases hencodes with h | h
    · refine ⟨relative names, ?_, ?_⟩
      · rw [decoder.decode_of_encodes h, decodeUtf8_of_valid (valid_relative hvalid)]
      · rw [hcomponents.1, pushComponents_normal]
    · refine ⟨slash :: relative names, ?_, ?_⟩
      · rw [decoder.decode_of_encodes h, decodeUtf8_of_valid (valid_slash_cons (valid_relative hvalid))]
      · rw [hcomponents.2]
        exact pushComponents_normal names dir.root
  obtain ⟨decoded, hdecoded, hpushed⟩ := hcandidate
  have hcanonical := hreaches.canonicalize hroot
  have hfile : fs.isFile (names.foldl push root) = true := by rw [fs.isFile_canonicalize hcanonical, hreaches.isFile]
  unfold resolve
  rw [hdecoded, Option.bind_eq_bind, Option.bind_some, hpushed]
  simp only [Option.bind_some, fs.isDir_of_isFile hreaches.isFile, Bool.false_eq_true, if_false]
  rw [hcanonical, hroot]
  simp only [Option.bind_some]
  rw [startsWith_foldl_push hnames root, hfile]
  rfl

/-- What a route serves for a path: the contents of the file it resolves to. -/
def files (read : PathBuf → Option Bytes) (root path : Str) : Option Bytes :=
  (StaticDir.resolve fs decoder ⟨Utf8.encode root⟩ path).bind read

/-- **What either listener serves for a route is a regular file below the route's root.** -/
theorem serveStatic_within_root {s : Server} {read : PathBuf → Option Bytes} (hfiles : s.files = files fs decoder read)
    {route : Option Route} {path : Str} {contents : Bytes} (h : s.serveStatic route path = some (some contents)) :
    ∃ matched docs p root, route = some matched ∧ matched.staticDir = some docs ∧ read p = some contents ∧
      fs.isFile p = true ∧ fs.canonicalize p = some p ∧ fs.canonicalize (Utf8.encode docs) = some root ∧
      startsWith p root = true := by
  unfold Server.serveStatic at h
  obtain ⟨matched, hroute, h⟩ := Option.bind_eq_some_iff.1 h
  obtain ⟨docs, hdocs, h⟩ := Option.map_eq_some_iff.1 h
  rw [hfiles] at h
  obtain ⟨p, hp, hread⟩ := Option.bind_eq_some_iff.1 h
  obtain ⟨hfile, hcanonical, root, hroot, hinside⟩ := resolve_eq_some fs decoder _ hp
  exact ⟨matched, docs, p, root, hroute, hdocs, hread, hfile, hcanonical, hroot, hinside⟩

/-- **Static serving stays inside the root and serves everything in it.** -/
theorem resolve_within_root :
    (∀ requestPath, [dot, dot] ∈ (decoder.decode (Utf8.encode requestPath)).splitOn slash →
      dir.resolve fs decoder requestPath = none) ∧
    (∀ requestPath p, dir.resolve fs decoder requestPath = some p →
      fs.isFile p = true ∧ ∃ q root, fs.canonicalize p = some q ∧ fs.canonicalize dir.root = some root ∧
        startsWith q root = true) ∧
    ∀ names root requestPath, fs.canonicalize dir.root = some root → fs.Reaches dir.root names →
      (∀ n ∈ names, Utf8.Valid n) →
      (Encodes (relative names) (Utf8.encode requestPath) ∨
        Encodes (slash :: relative names) (Utf8.encode requestPath)) →
      ∃ p, dir.resolve fs decoder requestPath = some p ∧ fs.canonicalize (names.foldl push dir.root) = some p := by
  refine ⟨fun _ h => dir.resolve_of_parent fs decoder h, fun _ p h => ?_, ?_⟩
  · obtain ⟨hfile, hcanonical, root, hroot, hinside⟩ := dir.resolve_eq_some fs decoder h
    exact ⟨hfile, p, root, hcanonical, hroot, hinside⟩
  · intro names root requestPath hroot hreaches hvalid hencodes
    exact ⟨_, dir.resolve_of_reaches fs decoder hroot hreaches hvalid hencodes, hreaches.canonicalize hroot⟩

/-! ## A root behind a link -/

/-- `/www` links to `/srv`, which holds `/srv/d/a b` and a link out of it. -/
def linkedTree : FileTree :=
  let text (s : String) := Utf8.encode s.toList
  FileTree.ofEntries
    [([text "srv"], .dir), ([text "www"], .symlink (text "srv")), ([text "etc"], .file),
      ([text "srv", text "d"], .dir), ([text "srv", text "d", text "a b"], .file),
      ([text "srv", text "out"], .symlink (text "/etc"))]
    [] (by decide) (by decide)

def linkedRoot : StaticDir := ⟨Utf8.encode "/www".toList⟩

theorem linkedTree_reaches :
    linkedTree.fileSystem.Reaches linkedRoot.root [Utf8.encode "d".toList, Utf8.encode "a b".toList] :=
  .dir ⟨by decide, by decide, by decide, by decide⟩ (by decide) (by decide)
    (.file ⟨by decide, by decide, by decide, by decide⟩ (by decide) (by decide))

theorem encodes_name : Encodes (slash :: relative [Utf8.encode "d".toList, Utf8.encode "a b".toList])
    (Utf8.encode "/%64%2Fa%20b".toList) := by
  have hnames : slash :: relative [Utf8.encode "d".toList, Utf8.encode "a b".toList] = [47, 100, 47, 97, 32, 98] := by
    decide
  have hpath : Utf8.encode "/%64%2Fa%20b".toList = [47, 37, 54, 52, 37, 50, 70, 97, 37, 50, 48, 98] := by decide
  rw [hnames, hpath]
  exact .cons (.literal (by decide)) (.cons (.escaped (by decide)) (.cons (.escaped (by decide))
    (.cons (.literal (by decide)) (.cons (.escaped (by decide)) (.cons (.literal (by decide)) .nil)))))

theorem resolve_encoded_name :
    ∃ p, linkedRoot.resolve linkedTree.fileSystem lenientDecoder "/%64%2Fa%20b".toList = some p ∧
      linkedTree.fileSystem.canonicalize (Utf8.encode "/www/d/a b".toList) = some p :=
  (linkedRoot.resolve_within_root linkedTree.fileSystem lenientDecoder).2.2 [Utf8.encode "d".toList, Utf8.encode "a b".toList]
    (Utf8.encode "/srv".toList) "/%64%2Fa%20b".toList (by decide) linkedTree_reaches
    (fun n hn => by
      rcases List.mem_cons.1 hn with rfl | hn
      · exact ⟨_, rfl⟩
      · exact ⟨_, (List.mem_singleton.1 hn).symm⟩)
    (Or.inr encodes_name)

example : linkedRoot.resolve linkedTree.fileSystem lenientDecoder "/out".toList = none := by decide

end StaticDir
end Zaphyl
