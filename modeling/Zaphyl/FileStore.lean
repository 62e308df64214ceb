import Zaphyl.FileTree
/-!
# FileStore — what calls change in a tree of files

A call that creates or removes acts on an entry: a name in a directory.  An open for writing follows the links its last
name leads through, a removal does not, and a directory is made where nothing stands.  Every call leaves the files of all
other places.
-/
open UnixPath

namespace UnixPath

instance (name : Bytes) : Decidable (IsName name) :=
  decidable_of_iff (name ≠ [] ∧ slash ∉ name ∧ name ≠ [dot] ∧ name ≠ [dot, dot])
    ⟨fun ⟨hnil, hslash, hdot, hdots⟩ => ⟨hnil, hslash, hdot, hdots⟩,
      fun h => ⟨h.ne_nil, h.not_slash, h.ne_dot, h.ne_dots⟩⟩

end UnixPath

namespace FileTree

variable (t : FileTree)

/-! ## Entries -/

/-- A name in a directory of the tree, whether something stands there or not. -/
structure Slot where
  dir : List Bytes
  name : Bytes
  isDir : t.node dir = some .dir
  isName : IsName name

variable {t}

def Slot.place (slot : t.Slot) : List Bytes := slot.dir ++ [slot.name]

theorem Slot.place_ne_nil (slot : t.Slot) : slot.place ≠ [] := List.append_ne_nil_of_right_ne_nil _ (by simp)

/-- A file, a link or anything but a directory: what may be replaced or removed without moving what is below. -/
def Slot.Free (slot : t.Slot) : Prop := t.node slot.place ≠ some .dir

instance (slot : t.Slot) : Decidable slot.Free := inferInstanceAs (Decidable (t.node slot.place ≠ some .dir))

/-- The tree with something else, or nothing, at an entry. -/
def update (slot : t.Slot) (free : slot.Free) (node : Option Node) : FileTree where
  node := Function.update t.node slot.place node
  cwd := t.cwd
  root_dir := by
    rw [Function.update_of_ne slot.place_ne_nil.symm]
    exact t.root_dir
  cwd_dir := by
    have hne : t.cwd ≠ slot.place := fun h => free (h ▸ t.cwd_dir)
    rw [Function.update_of_ne hne]
    exact t.cwd_dir
  parent_dir := by
    intro p name h
    have hdir : t.node p = some .dir := by
      by_cases hsame : p ++ [name] = slot.place
      · rw [(List.append_inj' hsame rfl).1]
        exact slot.isDir
      · rw [Function.update_of_ne hsame] at h
        exact t.parent_dir h
    have hne : p ≠ slot.place := fun h => free (h ▸ hdir)
    rw [Function.update_of_ne hne]
    exact hdir
  isName := by
    intro p name h
    by_cases hsame : p ++ [name] = slot.place
    · rw [(List.singleton_inj.1 (List.append_inj' hsame rfl).2)]
      exact slot.isName
    · rw [Function.update_of_ne hsame] at h
      exact t.isName h

@[simp] theorem node_update_self (slot : t.Slot) (free : slot.Free) (node : Option Node) :
    (t.update slot free node).node slot.place = node := Function.update_self _ _ _

theorem node_update_of_ne (slot : t.Slot) (free : slot.Free) (node : Option Node) {p : List Bytes} (h : p ≠ slot.place) :
    (t.update slot free node).node p = t.node p := Function.update_of_ne h _ _

variable (t)

/-- The entry of a name in a directory. -/
def slotAt (place : List Bytes) (name : Option Bytes) : Option t.Slot :=
  match name with
  | some name => if h : t.node place = some .dir ∧ IsName name then some ⟨place, name, h.1, h.2⟩ else none
  | none => none

/-- The entry that the pieces name, its last name not followed. -/
def entryOf (place : List Bytes) (pieces : List Bytes) : Option t.Slot :=
  (t.walk maxLinks place pieces.dropLast).bind (fun p => t.slotAt p pieces.getLast?)

/-- The entry that an open for writing comes to: links are followed, the last name's too. -/
def openWalk : Nat → List Bytes → List Bytes → Option t.Slot
  | links, place, pieces =>
    match t.descend place pieces.dropLast with
    | none => none
    | some (p, some (target, rest)) =>
      match links with
      | 0 => none
      | links + 1 =>
        if target = [] then none
        else openWalk links (origin target p) (target.splitOn slash ++ rest ++ pieces.getLast?.toList)
    | some (p, none) =>
      match t.slotAt p pieces.getLast? with
      | none => none
      | some slot =>
        match t.node slot.place with
        | some (.symlink target) =>
          match links with
          | 0 => none
          | links + 1 => if target = [] then none else openWalk links (origin target p) (target.splitOn slash)
        | _ => some slot

def openSlot (path : PathBuf) : Option t.Slot :=
  if path = [] then none else t.openWalk maxLinks (origin path t.cwd) (path.splitOn slash)

def unlinkSlot (path : PathBuf) : Option t.Slot := t.entryOf (origin path t.cwd) (path.splitOn slash)

/-! ## Where a name leads -/

theorem slotAt_eq_some {place : List Bytes} {name : Option Bytes} {slot : t.Slot} (h : t.slotAt place name = some slot) :
    slot.dir = place ∧ name = some slot.name := by
  unfold slotAt at h
  cases name with
  | none => cases h
  | some name =>
    dsimp only at h
    split at h
    · cases h
      exact ⟨rfl, rfl⟩
    · cases h

/-- An open arrives at an entry that is no link, or goes on from a link on the way or from one in the last place. -/
theorem openWalk_cases {links : Nat} {place pieces : List Bytes} {slot : t.Slot}
    (h : t.openWalk links place pieces = some slot) :
    (∃ p, t.descend place pieces.dropLast = some (p, none) ∧ t.slotAt p pieces.getLast? = some slot ∧
      ∀ target, t.node slot.place ≠ some (.symlink target)) ∨
    (∃ n p target rest, links = n + 1 ∧ t.descend place pieces.dropLast = some (p, some (target, rest)) ∧
      target ≠ [] ∧
      t.openWalk n (origin target p) (target.splitOn slash ++ rest ++ pieces.getLast?.toList) = some slot) ∨
    (∃ n p target link, links = n + 1 ∧ t.descend place pieces.dropLast = some (p, none) ∧
      t.slotAt p pieces.getLast? = some link ∧ t.node link.place = some (.symlink target) ∧
      t.openWalk n (origin target p) (target.splitOn slash) = some slot) := by
  unfold openWalk at h
  split at h
  · cases h
  · rename_i p target rest hdescend
    cases links with
    | zero => cases h
    | succ n =>
      dsimp only at h
      split at h
      · cases h
      · rename_i htarget
        exact .inr (.inl ⟨n, p, target, rest, rfl, hdescend, htarget, h⟩)
  · rename_i p hdescend
    split at h
    · cases h
    · rename_i link hslot
      split at h
      · rename_i target hlink
        cases links with
        | zero => cases h
        | succ n =>
          dsimp only at h
          split at h
          · cases h
          · exact .inr (.inr ⟨n, p, target, link, rfl, hdescend, hslot, hlink, h⟩)
      · rename_i hnot
        cases h
        exact .inl ⟨p, hdescend, hslot, hnot⟩

/-- An open never ends on a link. -/
theorem openWalk_not_link {links : Nat} {place pieces : List Bytes} {slot : t.Slot}
    (h : t.openWalk links place pieces = some slot) : ∀ target, t.node slot.place ≠ some (.symlink target) := by
  induction links using Nat.strong_induction_on generalizing place pieces with
  | _ links ih =>
    obtain ⟨-, -, -, hnot⟩ | ⟨n, _, _, _, rfl, -, -, hgo⟩ | ⟨n, _, _, _, rfl, -, -, -, hgo⟩ := t.openWalk_cases h
    · exact hnot
    · exact ih n (Nat.lt_succ_self n) hgo
    · exact ih n (Nat.lt_succ_self n) hgo

theorem place_of_slotAt {p : List Bytes} {name : Bytes} {slot : t.Slot} (h : t.slotAt p (some name) = some slot) :
    slot.place = p ++ [name] := by
  obtain ⟨hdir, hname⟩ := t.slotAt_eq_some h
  rw [Slot.place, hdir, ← Option.some.inj hname]

/-- **An open of a name ends in the directory that the pieces before it lead to**, unless a link stands there. -/
theorem openWalk_name {links : Nat} {place ps : List Bytes} {name : Bytes} {slot : t.Slot}
    (h : t.openWalk links place (ps ++ [name]) = some slot) :
    ∃ p, t.walk links place ps = some p ∧
      ((∀ target, t.node (p ++ [name]) ≠ some (.symlink target)) → slot.place = p ++ [name]) := by
  induction links using Nat.strong_induction_on generalizing place ps with
  | _ links ih =>
    have hcases := t.openWalk_cases h
    rw [List.dropLast_concat, List.getLast?_concat] at hcases
    obtain ⟨p, hdescend, hslot, -⟩ | ⟨n, p, target, rest, rfl, hdescend, htarget, hgo⟩ |
      ⟨_, p, target, link, -, hdescend, hslot, hlink, -⟩ := hcases
    · exact ⟨p, t.walk_of_descend hdescend, fun _ => t.place_of_slotAt hslot⟩
    · obtain ⟨p', hwalk, hplace⟩ := ih n (Nat.lt_succ_self n) hgo
      exact ⟨p', (t.walk_of_link hdescend htarget).trans hwalk, hplace⟩
    · refine ⟨p, t.walk_of_descend hdescend, fun hnot => ?_⟩
      rw [t.place_of_slotAt hslot] at hlink
      exact absurd hlink (hnot target)

/-- A removal acts on the last name in the directory that the pieces before it lead to. -/
theorem entryOf_name {place ps : List Bytes} {name : Bytes} {slot : t.Slot}
    (h : t.entryOf place (ps ++ [name]) = some slot) :
    ∃ p, t.walk maxLinks place ps = some p ∧ slot.place = p ++ [name] := by
  unfold entryOf at h
  rw [List.dropLast_concat, List.getLast?_concat] at h
  obtain ⟨p, hwalk, hslot⟩ := Option.bind_eq_some_iff.1 h
  exact ⟨p, hwalk, t.place_of_slotAt hslot⟩

/-- Where a path leads as a directory to push names onto: the empty one to the working directory. -/
def base (path : PathBuf) : Option (List Bytes) := t.walk maxLinks (origin path t.cwd) (path.splitOn slash)

/-- What leads to the pieces before a pushed name leads to the path it was pushed onto. -/
theorem base_of_push (path : PathBuf) {name : Bytes} (hname : IsName name) : ∃ ps,
    (push path name).splitOn slash = ps ++ [name] ∧ origin (push path name) t.cwd = origin path t.cwd ∧
      ∀ p, t.walk maxLinks (origin path t.cwd) ps = some p → t.node p = some .dir → t.base path = some p := by
  obtain ⟨ps, last, hpath, hlast, hpush⟩ := splitOn_push path hname
  refine ⟨ps, hpush, ?_, fun p hwalk hdir => ?_⟩
  · unfold origin
    simp only [head?_push path hname]
  · unfold base
    rw [hpath]
    obtain rfl | rfl := hlast
    · rwa [List.append_nil]
    · have hslash : t.descend p [[]] = some (p, none) := by
        rw [descend_cons, if_neg (not_not.2 hdir), if_pos (.inl rfl)]
        rfl
      rw [t.walk_append hwalk (fun q link hlink => by rw [hslash] at hlink; cases hlink), hslash]
      rfl

theorem slot_dir_eq {slot : t.Slot} {p : List Bytes} {name : Bytes} (h : slot.place = p ++ [name]) :
    t.node p = some .dir := by
  rw [← (List.append_inj' h rfl).1]
  exact slot.isDir

/-- **An open of a name pushed onto a directory creates or changes that entry exactly when no link stands there.** -/
theorem openSlot_push {path : PathBuf} {name : Bytes} (hname : IsName name) {slot : t.Slot}
    (h : t.openSlot (push path name) = some slot) :
    (∃ p, t.base path = some p ∧ slot.place = p ++ [name]) ↔ t.isSymlink (push path name) = false := by
  obtain ⟨ps, hsplit, horigin, hbase⟩ := t.base_of_push path hname
  have hopen : t.openWalk maxLinks (origin path t.cwd) (ps ++ [name]) = some slot := by
    unfold openSlot at h
    split at h
    · cases h
    · rwa [hsplit, horigin] at h
  obtain ⟨p, hwalk, hplace⟩ := t.openWalk_name hopen
  have hlink : t.isSymlink (push path name) = false ↔ ∀ target, t.node (p ++ [name]) ≠ some (.symlink target) := by
    unfold isSymlink
    rw [hsplit, horigin, List.dropLast_concat, hwalk, List.getLast?_concat]
    simp only [Option.toList_some]
    cases t.node (p ++ [name]) with
    | none => exact iff_of_true rfl (fun _ h => by cases h)
    | some kind =>
      cases kind with
      | symlink target => exact iff_of_false (fun h => by cases h) (fun h => h target rfl)
      | dir | file | other => exact iff_of_true rfl (fun _ h => by cases h)
  rw [hlink]
  constructor
  · rintro ⟨p', hp', hslot⟩ target htarget
    -- a link that stands there has a directory above it, which is the base
    have hsame : p = p' := by
      have hdir : t.node p = some .dir := t.parent_dir (by rw [htarget]; exact Option.some_ne_none _)
      exact Option.some.inj ((hbase p hwalk hdir).symm.trans hp')
    rw [hsame, ← hslot] at htarget
    exact t.openWalk_not_link hopen target htarget
  · intro hnot
    exact ⟨p, hbase p hwalk (t.slot_dir_eq (hplace hnot)), hplace hnot⟩

/-- **A removal of a name pushed onto a directory removes that entry.** -/
theorem unlinkSlot_push {path : PathBuf} {name : Bytes} (hname : IsName name) {slot : t.Slot}
    (h : t.unlinkSlot (push path name) = some slot) : ∃ p, t.base path = some p ∧ slot.place = p ++ [name] := by
  obtain ⟨ps, hsplit, horigin, hbase⟩ := t.base_of_push path hname
  unfold unlinkSlot at h
  rw [hsplit, horigin] at h
  obtain ⟨p, hwalk, hplace⟩ := t.entryOf_name h
  exact ⟨p, hbase p hwalk (t.slot_dir_eq hplace), hplace⟩

end FileTree

/-! ## Calls -/

/-- What the system answers to a write at a place: the open is refused, the write fails behind some bytes, or it is done. -/
inductive WriteAnswer
  | refused
  | cut (written : Nat)
  | done
deriving DecidableEq

/-- What the system permits at each place. -/
structure Rights where
  mkdir : List Bytes → Bool
  read : List Bytes → Bool
  write : List Bytes → WriteAnswer
  unlink : List Bytes → Bool

/-- A tree and the bytes that a read of each place gives. -/
structure FileStore where
  tree : FileTree
  content : List Bytes → Bytes

namespace FileStore

variable (rights : Rights) (s : FileStore)

/-- A path with a zero byte is refused by every call. -/
def IsCString (path : PathBuf) : Prop := 0 ∉ path

instance (path : PathBuf) : Decidable (IsCString path) := inferInstanceAs (Decidable (0 ∉ path))

/-- `Path::exists`. -/
def pathExists (path : PathBuf) : Bool := decide (IsCString path) && (s.tree.place path).isSome

/-- `Path::is_dir`. -/
def isDir (path : PathBuf) : Bool := decide (IsCString path) && s.tree.isDir path

/-- `std::fs::read`. -/
def read (path : PathBuf) : Option Bytes :=
  if IsCString path then
    match s.tree.place path with
    | some place => if s.tree.node place ≠ some .dir ∧ rights.read place = true then some (s.content place) else none
    | none => none
  else none

def makeDir (slot : s.tree.Slot) (free : slot.Free) : FileStore := { s with tree := s.tree.update slot free (some .dir) }

/-- A directory is made where the pieces name nothing. -/
def mkdir (place pieces : List Bytes) : Option FileStore :=
  match s.tree.entryOf place pieces with
  | some slot =>
    if h : s.tree.node slot.place = none ∧ rights.mkdir slot.place = true then
      some (s.makeDir slot (fun hdir => by rw [h.1] at hdir; cases hdir))
    else none
  | none => none

/-- Each of the paths is a directory already or is made one. -/
def createDirs (place : List Bytes) : FileStore → List (List Bytes) → FileStore × Bool
  | s, [] => (s, true)
  | s, pieces :: rest =>
    if (s.tree.walk FileTree.maxLinks place pieces).bind s.tree.node = some .dir then createDirs place s rest
    else
      match s.mkdir rights place pieces with
      | some s => createDirs place s rest
      | none => (s, false)

/-- `std::fs::create_dir_all`: the path's ancestors from the first on, then itself. -/
def createDirAll (path : PathBuf) : FileStore × Bool :=
  if path = [] then (s, true)
  else if IsCString path then
    createDirs rights (FileTree.origin path s.tree.cwd) s (path.splitOn slash).inits.tail
  else (s, false)

/-- The entry that a write opens. -/
def opened (path : PathBuf) : Option s.tree.Slot :=
  if IsCString path then
    (s.tree.openSlot path).filter (fun slot => slot.Free ∧ rights.write slot.place ≠ .refused)
  else none

/-- The file at an entry with other bytes; what is no file keeps none. -/
def store (slot : s.tree.Slot) (free : slot.Free) (bytes : Bytes) : FileStore :=
  if s.tree.node slot.place = some .other then s
  else ⟨s.tree.update slot free (some .file), Function.update s.content slot.place bytes⟩

/-- A write that was opened: the store afterwards, the place, and whether all was written. -/
structure Written where
  store : FileStore
  place : List Bytes
  complete : Bool

/-- `std::fs::write`. -/
def write (path : PathBuf) (bytes : Bytes) : Option Written :=
  match s.opened rights path with
  | none => none
  | some slot =>
    if free : slot.Free then
      match rights.write slot.place with
      | .refused => none
      | .cut written => some ⟨s.store slot free (bytes.take written), slot.place, false⟩
      | .done => some ⟨s.store slot free bytes, slot.place, true⟩
    else none

/-- `std::fs::remove_file`: the store afterwards, and the place of the entry. -/
def removeFile (path : PathBuf) : Option (FileStore × List Bytes) :=
  if IsCString path then
    match s.tree.unlinkSlot path with
    | none => none
    | some slot =>
      if h : slot.Free ∧ s.tree.node slot.place ≠ none ∧ rights.unlink slot.place = true then
        some ({ s with tree := s.tree.update slot h.1 none }, slot.place)
      else none
  else none

/-! ## What calls leave -/

variable {rights s}

/-- What is no directory at a place, and its bytes. -/
def fileAt (s : FileStore) (p : List Bytes) : Option (Node × Bytes) :=
  match s.tree.node p with
  | some .dir => none
  | some kind => some (kind, s.content p)
  | none => none

theorem fileAt_congr {s u : FileStore} {p : List Bytes} (hnode : s.tree.node p = u.tree.node p)
    (hcontent : s.content p = u.content p) : s.fileAt p = u.fileAt p := by
  unfold fileAt
  rw [hnode, hcontent]

theorem fileAt_makeDir {slot : s.tree.Slot} (free : slot.Free) (hnone : s.tree.node slot.place = none) (p : List Bytes) :
    (s.makeDir slot free).fileAt p = s.fileAt p := by
  by_cases hsame : p = slot.place
  · unfold fileAt makeDir
    rw [hsame, FileTree.node_update_self, hnone]
  · exact fileAt_congr (FileTree.node_update_of_ne slot free _ hsame) rfl

theorem fileAt_mkdir {place pieces : List Bytes} {u : FileStore} (h : s.mkdir rights place pieces = some u)
    (p : List Bytes) : u.fileAt p = s.fileAt p := by
  unfold mkdir at h
  split at h
  · split at h
    · rename_i hnone
      cases h
      exact fileAt_makeDir _ hnone.1 p
    · cases h
  · cases h

theorem fileAt_createDirs (place : List Bytes) (paths : List (List Bytes)) (s : FileStore) (p : List Bytes) :
    (createDirs rights place s paths).1.fileAt p = s.fileAt p := by
  induction paths generalizing s with
  | nil => rfl
  | cons pieces rest ih =>
    unfold createDirs
    split
    · exact ih s
    · split
      · rename_i u hmkdir
        exact (ih u).trans (fileAt_mkdir hmkdir p)
      · rfl

/-- **Making directories leaves every file.** -/
theorem fileAt_createDirAll (path : PathBuf) (p : List Bytes) :
    (s.createDirAll rights path).1.fileAt p = s.fileAt p := by
  unfold createDirAll
  split
  · rfl
  · split
    · exact fileAt_createDirs _ _ s p
    · rfl

theorem fileAt_store_of_ne {slot : s.tree.Slot} (free : slot.Free) (bytes : Bytes) {p : List Bytes} (h : p ≠ slot.place) :
    (s.store slot free bytes).fileAt p = s.fileAt p := by
  unfold store
  split
  · rfl
  · exact fileAt_congr (FileTree.node_update_of_ne slot free _ h) (Function.update_of_ne h _ _)

theorem opened_eq_some {path : PathBuf} {slot : s.tree.Slot} (h : s.opened rights path = some slot) :
    IsCString path ∧ s.tree.openSlot path = some slot ∧ slot.Free ∧ rights.write slot.place ≠ .refused := by
  unfold opened at h
  split at h
  · rename_i hzero
    obtain ⟨hslot, hp⟩ := Option.filter_eq_some_iff.1 h
    exact ⟨hzero, hslot, of_decide_eq_true hp⟩
  · cases h

/-- A write acts on the entry it opens and leaves every other file. -/
theorem write_spec {path : PathBuf} {slot : s.tree.Slot} (h : s.opened rights path = some slot) (bytes : Bytes) :
    ∃ w, s.write rights path bytes = some w ∧ w.place = slot.place ∧
      ∀ p, p ≠ slot.place → w.store.fileAt p = s.fileAt p := by
  obtain ⟨-, -, hfree, hrights⟩ := opened_eq_some h
  unfold write
  rw [h]
  dsimp only
  rw [dif_pos hfree]
  cases hanswer : rights.write slot.place with
  | refused => exact absurd hanswer hrights
  | cut written => exact ⟨_, rfl, rfl, fun p hp => fileAt_store_of_ne hfree _ hp⟩
  | done => exact ⟨_, rfl, rfl, fun p hp => fileAt_store_of_ne hfree _ hp⟩

theorem write_eq_none {path : PathBuf} (h : s.opened rights path = none) (bytes : Bytes) :
    s.write rights path bytes = none := by
  unfold write
  rw [h]

/-- A removal acts on the entry of the path and leaves every other file. -/
theorem removeFile_eq_some {path : PathBuf} {u : FileStore} {place : List Bytes}
    (h : s.removeFile rights path = some (u, place)) :
    IsCString path ∧ (∃ slot, s.tree.unlinkSlot path = some slot ∧ slot.place = place) ∧
      ∀ p, p ≠ place → u.fileAt p = s.fileAt p := by
  unfold removeFile at h
  split at h
  · rename_i hzero
    split at h
    · cases h
    · rename_i slot hslot
      split at h
      · rename_i hremove
        cases h
        exact ⟨hzero, ⟨slot, hslot, rfl⟩,
          fun p hp => fileAt_congr (FileTree.node_update_of_ne slot hremove.1 _ hp) rfl⟩
      · cases h
  · cases h

end FileStore
