import Zaphyl.FileStore
/-!
# HeldFiles — a directory of files

A tree that keeps the directories and links of another leads where that one leads.  Calls keep them, so a directory that
holds files and directories alone goes on to, whatever is made elsewhere or written and removed in it, and a name in it
is read, written and removed as the entry of that name.
-/
open UnixPath

namespace FileTree

/-! ## Walks in a tree that has grown -/

/-- The directories and links of the one stand in the other. -/
structure Keeps (t u : FileTree) : Prop where
  cwd : u.cwd = t.cwd
  dir : ∀ {p}, t.node p = some .dir → u.node p = some .dir
  link : ∀ {p target}, t.node p = some (.symlink target) → u.node p = some (.symlink target)

variable {t u v : FileTree}

theorem Keeps.refl (t : FileTree) : t.Keeps t := ⟨rfl, id, id⟩

theorem Keeps.trans (h₁ : t.Keeps u) (h₂ : u.Keeps v) : t.Keeps v :=
  ⟨h₂.cwd.trans h₁.cwd, fun h => h₂.dir (h₁.dir h), fun h => h₂.link (h₁.link h)⟩

/-- What is neither a directory nor a link may change. -/
theorem keeps_update (slot : t.Slot) (free : slot.Free) (hlink : ∀ target, t.node slot.place ≠ some (.symlink target))
    (node : Option Node) : t.Keeps (t.update slot free node) := by
  refine ⟨rfl, fun {p} hp => ?_, fun {p target} hp => ?_⟩
  · rw [node_update_of_ne slot free node (fun hsame => free (hsame ▸ hp))]
    exact hp
  · rw [node_update_of_ne slot free node (fun hsame => hlink target (hsame ▸ hp))]
    exact hp

/-- Pieces that lead to a directory or up to a link lead there in a tree that has grown. -/
theorem Keeps.descend (h : t.Keeps u) : ∀ {pieces place place' : List Bytes} {link : Option (PathBuf × List Bytes)},
    t.descend place pieces = some (place', link) → (link = none → t.node place' = some .dir) →
      u.descend place pieces = some (place', link)
  | [], _, _, _, hdescend, _ => hdescend
  | piece :: rest, place, place', link, hdescend, hdir => by
    rw [descend_cons] at hdescend ⊢
    split at hdescend
    · cases hdescend
    · rename_i hplace
      rw [if_neg (not_not.2 (h.dir (not_not.1 hplace)))]
      split at hdescend
      · rename_i hskip
        rw [if_pos hskip]
        exact h.descend hdescend hdir
      · rename_i hskip
        rw [if_neg hskip]
        split at hdescend
        · rename_i hup
          rw [if_pos hup]
          exact h.descend hdescend hdir
        · rename_i hup
          rw [if_neg hup]
          split at hdescend
          · cases hdescend
          · rename_i target hnode
            rw [h.link hnode]
            exact hdescend
          · rename_i kind hlink hnode
            -- behind anything but a directory no piece leads on
            have hnext : t.node (place ++ [piece]) = some .dir := by
              cases rest with
              | nil =>
                cases hdescend
                exact hdir rfl
              | cons next rest =>
                rw [descend_cons] at hdescend
                split at hdescend
                · cases hdescend
                · rename_i hdir'
                  exact not_not.1 hdir'
            rw [h.dir hnext]
            exact h.descend hdescend hdir

/-- **A walk to a directory goes there in a tree that has grown.** -/
theorem Keeps.walk (h : t.Keeps u) {links : Nat} {place pieces place' : List Bytes}
    (hwalk : t.walk links place pieces = some place') (hdir : t.node place' = some .dir) :
    u.walk links place pieces = some place' := by
  refine t.walk_induction (motive := fun links place pieces place' => t.node place' = some .dir →
    u.walk links place pieces = some place') ?_ ?_ hwalk hdir
  · exact fun hdescend hdir => u.walk_of_descend (h.descend hdescend (fun _ => hdir))
  · intro links place pieces p rest place' target hdescend htarget ih hdir
    rw [u.walk_of_link (h.descend hdescend (fun hnone => by cases hnone)) htarget]
    exact ih hdir

theorem Keeps.base (h : t.Keeps u) {path : PathBuf} {dir : List Bytes} (hbase : t.base path = some dir)
    (hdir : t.node dir = some .dir) : u.base path = some dir := by
  unfold FileTree.base at hbase ⊢
  rw [h.cwd]
  exact h.walk hbase hdir

end FileTree

namespace FileStore

variable {rights : Rights} {s u : FileStore}

/-! ## Making directories -/

/-- Directories were made where nothing stood, and nothing else changed. -/
structure Grows (s u : FileStore) : Prop where
  cwd : u.tree.cwd = s.tree.cwd
  node : ∀ p, u.tree.node p = s.tree.node p ∨ s.tree.node p = none ∧ u.tree.node p = some .dir
  content : u.content = s.content

theorem Grows.refl (s : FileStore) : s.Grows s := ⟨rfl, fun _ => .inl rfl, rfl⟩

theorem Grows.trans {v : FileStore} (h₁ : s.Grows u) (h₂ : u.Grows v) : s.Grows v := by
  refine ⟨h₂.cwd.trans h₁.cwd, fun p => ?_, h₂.content.trans h₁.content⟩
  obtain hsame | ⟨hnone, hdir⟩ := h₂.node p
  · rw [hsame]
    exact h₁.node p
  · obtain hsame' | ⟨hnone', hdir'⟩ := h₁.node p
    · exact .inr ⟨hsame' ▸ hnone, hdir⟩
    · rw [hdir'] at hnone
      cases hnone

theorem Grows.node_of_some (h : s.Grows u) {p : List Bytes} {kind : Node} (hp : s.tree.node p = some kind) :
    u.tree.node p = some kind := by
  obtain hsame | ⟨hnone, -⟩ := h.node p
  · rw [hsame, hp]
  · rw [hp] at hnone
    cases hnone

theorem Grows.keeps (h : s.Grows u) : s.tree.Keeps u.tree := ⟨h.cwd, h.node_of_some, h.node_of_some⟩

theorem grows_mkdir {place pieces : List Bytes} (h : s.mkdir rights place pieces = some u) : s.Grows u := by
  unfold mkdir at h
  split at h
  · rename_i slot _
    split at h
    · rename_i hnone
      have hfree : slot.Free := fun hdir => by
        rw [hnone.1] at hdir
        cases hdir
      cases h
      refine ⟨rfl, fun p => ?_, rfl⟩
      by_cases hsame : p = slot.place
      · rw [hsame]
        exact .inr ⟨hnone.1, FileTree.node_update_self slot hfree _⟩
      · exact .inl (FileTree.node_update_of_ne slot hfree _ hsame)
    · cases h
  · cases h

theorem grows_createDirs (place : List Bytes) (paths : List (List Bytes)) (s : FileStore) :
    s.Grows (createDirs rights place s paths).1 := by
  induction paths generalizing s with
  | nil => exact .refl s
  | cons pieces rest ih =>
    unfold createDirs
    split
    · exact ih s
    · split
      · rename_i u hmkdir
        exact (grows_mkdir hmkdir).trans (ih u)
      · exact .refl s

theorem grows_createDirAll (path : PathBuf) : s.Grows (s.createDirAll rights path).1 := by
  unfold createDirAll
  split
  · exact .refl s
  · split
    · exact grows_createDirs _ _ s
    · exact .refl s

theorem Grows.fileAt (h : s.Grows u) (p : List Bytes) : u.fileAt p = s.fileAt p := by
  obtain hsame | ⟨hnone, hdir⟩ := h.node p
  · exact fileAt_congr hsame (congrFun h.content p)
  · unfold FileStore.fileAt
    rw [hnone, hdir]

theorem isCString_push {path : PathBuf} {name : Bytes} (hpath : IsCString path) (hname : 0 ∉ name) :
    IsCString (push path name) := by
  unfold IsCString push
  split
  · rw [List.mem_append, not_or]
    exact ⟨hpath, hname⟩
  · rw [List.mem_append, List.mem_cons, not_or, not_or]
    exact ⟨hpath, by decide, hname⟩

/-! ## A directory of files -/

/-- The names that `read_dir` gives of a directory, in its own order. -/
structure Lists (s : FileStore) (dir : List Bytes) (names : List Bytes) : Prop where
  nodup : names.Nodup
  mem_iff : ∀ name, name ∈ names ↔ s.tree.node (dir ++ [name]) ≠ none

theorem fileAt_eq_none {p : List Bytes} (h : s.tree.node p = none ∨ s.tree.node p = some .dir) : s.fileAt p = none := by
  unfold fileAt
  obtain h | h := h <;> rw [h]

theorem fileAt_ne_none {p : List Bytes} (hthere : s.tree.node p ≠ none) (hdir : s.tree.node p ≠ some .dir) :
    s.fileAt p ≠ none := by
  unfold fileAt
  cases hnode : s.tree.node p with
  | none => exact absurd hnode hthere
  | some kind =>
    cases kind with
    | dir => exact absurd hnode hdir
    | file | symlink | other => exact fun h => by cases h

theorem isCString_of_write {path : PathBuf} {bytes : Bytes} (h : s.write rights path bytes ≠ none) :
    IsCString path := by
  cases hopened : s.opened rights path with
  | none => exact absurd (write_eq_none hopened bytes) h
  | some slot => exact (opened_eq_some hopened).1

/-- A write changes no file but the one at its place. -/
theorem fileAt_of_write {path : PathBuf} {bytes : Bytes} {w : Written} (h : s.write rights path bytes = some w)
    {p : List Bytes} (hp : p ≠ w.place) : w.store.fileAt p = s.fileAt p := by
  cases hopened : s.opened rights path with
  | none =>
    rw [write_eq_none hopened] at h
    cases h
  | some slot =>
    obtain ⟨w', hw', hplace, hframe⟩ := write_spec hopened bytes
    obtain rfl := Option.some.inj (hw'.symm.trans h)
    exact hframe p (hplace ▸ hp)

/-- The path leads to a directory whose entries are files and directories. -/
structure HoldsFiles (s : FileStore) (path : PathBuf) (dir : List Bytes) : Prop where
  base : s.tree.base path = some dir
  isDir : s.tree.node dir = some .dir
  entries : ∀ {name kind}, s.tree.node (dir ++ [name]) = some kind → kind = .dir ∨ kind = .file

namespace HoldsFiles

variable {path : PathBuf} {dir : List Bytes} {name : Bytes}

theorem not_link (h : s.HoldsFiles path dir) (name : Bytes) (target : PathBuf) :
    s.tree.node (dir ++ [name]) ≠ some (.symlink target) := by
  intro hnode
  obtain hkind | hkind := h.entries hnode
  · cases hkind
  · cases hkind

theorem file_of_fileAt (h : s.HoldsFiles path dir) {kind : Node} {bytes : Bytes}
    (hfile : s.fileAt (dir ++ [name]) = some (kind, bytes)) : kind = .file := by
  unfold fileAt at hfile
  cases hnode : s.tree.node (dir ++ [name]) with
  | none =>
    rw [hnode] at hfile
    cases hfile
  | some kind' =>
    rw [hnode] at hfile
    obtain rfl | rfl := h.entries hnode
    · cases hfile
    · cases hfile
      rfl

theorem grows (h : s.HoldsFiles path dir) (hgrows : s.Grows u) : u.HoldsFiles path dir := by
  refine ⟨hgrows.keeps.base h.base h.isDir, hgrows.node_of_some h.isDir, fun {name kind} hnode => ?_⟩
  obtain hsame | ⟨-, hdir⟩ := hgrows.node (dir ++ [name])
  · exact h.entries (hsame.symm.trans hnode)
  · exact .inl (Option.some.inj (hnode.symm.trans hdir))

/-- An entry may become a file or be removed, and the files of other places may change. -/
theorem update (h : s.HoldsFiles path dir) (slot : s.tree.Slot) (free : slot.Free) (hplace : slot.place = dir ++ [name])
    (node : Option Node) (hnode : ∀ kind, node = some kind → kind = .file) {content : List Bytes → Bytes} :
    HoldsFiles ⟨s.tree.update slot free node, content⟩ path dir := by
  have hkeeps := FileTree.keeps_update slot free (by rw [hplace]; exact h.not_link name) node
  refine ⟨hkeeps.base h.base h.isDir, hkeeps.dir h.isDir, fun {other kind} hother => ?_⟩
  by_cases hsame : dir ++ [other] = slot.place
  · rw [hsame] at hother
    exact .inr (hnode kind ((FileTree.node_update_self slot free node).symm.trans hother))
  · exact h.entries ((FileTree.node_update_of_ne slot free node hsame).symm.trans hother)

/-- The pieces before a pushed name lead to the directory. -/
theorem walk (h : s.HoldsFiles path dir) (hname : IsName name) : ∃ ps, (push path name).splitOn slash = ps ++ [name] ∧
    FileTree.origin (push path name) s.tree.cwd = FileTree.origin path s.tree.cwd ∧
    s.tree.walk FileTree.maxLinks (FileTree.origin path s.tree.cwd) ps = some dir := by
  obtain ⟨ps, last, hpath, hlast, hpush⟩ := splitOn_push path hname
  refine ⟨ps, hpush, ?_, ?_⟩
  · unfold FileTree.origin
    simp only [head?_push path hname]
  · have hbase := h.base
    unfold FileTree.base at hbase
    rw [hpath] at hbase
    obtain rfl | rfl := hlast
    · rwa [List.append_nil] at hbase
    · exact s.tree.walk_of_slash hbase

theorem isSymlink_push (h : s.HoldsFiles path dir) (hname : IsName name) :
    s.tree.isSymlink (push path name) = false := by
  obtain ⟨ps, hsplit, horigin, hwalk⟩ := h.walk hname
  unfold FileTree.isSymlink
  rw [hsplit, horigin, List.dropLast_concat, hwalk, List.getLast?_concat]
  simp only [Option.toList_some]
  cases hnode : s.tree.node (dir ++ [name]) with
  | none => rfl
  | some kind => obtain rfl | rfl := h.entries hnode <;> rfl

/-- **A name pushed onto the path leads to the entry of that name**, or nowhere. -/
theorem place_push (h : s.HoldsFiles path dir) (hname : IsName name) : s.tree.place (push path name) =
    if s.tree.node (dir ++ [name]) = none then none else some (dir ++ [name]) := by
  obtain ⟨ps, hsplit, horigin, hwalk⟩ := h.walk hname
  have hne : push path name ≠ [] := by
    unfold push
    split <;> simp [hname.ne_nil]
  have hstep : s.tree.descend dir [name] =
      if s.tree.node (dir ++ [name]) = none then none else some (dir ++ [name], none) := by
    rw [FileTree.descend_cons, if_neg (not_not.2 h.isDir), if_neg (by simp [hname.ne_nil, hname.ne_dot]),
      if_neg hname.ne_dots]
    cases hnode : s.tree.node (dir ++ [name]) with
    | none => rfl
    | some kind => obtain rfl | rfl := h.entries hnode <;> rfl
  have hnolink : ∀ p link, s.tree.descend dir [name] ≠ some (p, some link) := by
    intro p link hlink
    rw [hstep] at hlink
    split at hlink
    · cases hlink
    · cases hlink
  unfold FileTree.place
  rw [if_neg hne, horigin, hsplit, s.tree.walk_append hwalk hnolink, hstep]
  split <;> rfl

/-! ## Calls on a name in it -/

theorem pathExists_push (h : s.HoldsFiles path dir) (hname : IsName name) : s.pathExists (push path name) = true ↔
    IsCString (push path name) ∧ s.tree.node (dir ++ [name]) ≠ none := by
  unfold pathExists
  rw [h.place_push hname, Bool.and_eq_true, decide_eq_true_iff]
  by_cases hnone : s.tree.node (dir ++ [name]) = none
  · rw [if_pos hnone]
    exact and_congr_right fun _ => iff_of_false (fun h => by cases h) (not_not.2 hnone)
  · rw [if_neg hnone]
    exact and_congr_right fun _ => iff_of_true rfl hnone

/-- **A read of a name gives the bytes of its file.** -/
theorem read_push (h : s.HoldsFiles path dir) (hname : IsName name) {bytes : Bytes} :
    s.read rights (push path name) = some bytes ↔ IsCString (push path name) ∧ rights.read (dir ++ [name]) = true ∧
      s.fileAt (dir ++ [name]) = some (.file, bytes) := by
  unfold read fileAt
  rw [h.place_push hname]
  cases hnode : s.tree.node (dir ++ [name]) with
  | none => simp
  | some kind => obtain rfl | rfl := h.entries hnode <;> simp [hnode]

/-- The entry that an open of a name comes to. -/
theorem opened_push (h : s.HoldsFiles path dir) (hname : IsName name) {slot : s.tree.Slot}
    (hopened : s.opened rights (push path name) = some slot) : slot.place = dir ++ [name] := by
  obtain ⟨-, hslot, -⟩ := opened_eq_some hopened
  obtain ⟨p, hbase, hplace⟩ := (s.tree.openSlot_push hname hslot).2 (h.isSymlink_push hname)
  rw [hplace, Option.some.inj (hbase.symm.trans h.base)]

/-- **A write to a name leaves the directory and, when it is complete, the bytes in the file of that name.** -/
theorem write_push (h : s.HoldsFiles path dir) (hname : IsName name) {bytes : Bytes} {w : Written}
    (hwrite : s.write rights (push path name) bytes = some w) :
    w.place = dir ++ [name] ∧ w.store.HoldsFiles path dir ∧ ∃ written,
      w.store.fileAt (dir ++ [name]) = some (.file, written) ∧ (w.complete = true → written = bytes) := by
  unfold write at hwrite
  split at hwrite
  · cases hwrite
  · rename_i slot hopened
    have hplace := h.opened_push hname hopened
    split at hwrite
    · rename_i hfree
      have hstored : ∀ written, (s.store slot hfree written).HoldsFiles path dir ∧
          (s.store slot hfree written).fileAt (dir ++ [name]) = some (.file, written) := by
        intro written
        have hother : s.tree.node slot.place ≠ some .other := by
          intro hnode
          rw [hplace] at hnode
          obtain hkind | hkind := h.entries hnode
          · cases hkind
          · cases hkind
        unfold store
        rw [if_neg hother, ← hplace]
        refine ⟨h.update slot hfree hplace _ (fun kind hkind => (Option.some.inj hkind).symm), ?_⟩
        unfold fileAt
        rw [FileTree.node_update_self]
        exact congrArg (fun bytes => some (Node.file, bytes)) (Function.update_self ..)
      split at hwrite
      · cases hwrite
      · rename_i n _
        cases hwrite
        exact ⟨hplace, (hstored _).1, _, (hstored _).2, fun hcomplete => by cases hcomplete⟩
      · cases hwrite
        exact ⟨hplace, (hstored _).1, _, (hstored _).2, fun _ => rfl⟩
    · cases hwrite

/-- **A removal of a name leaves the directory without the file of that name.** -/
theorem removeFile_push (h : s.HoldsFiles path dir) (hname : IsName name) {place : List Bytes}
    (hremove : s.removeFile rights (push path name) = some (u, place)) :
    place = dir ++ [name] ∧ u.HoldsFiles path dir ∧ u.fileAt (dir ++ [name]) = none ∧
      s.fileAt (dir ++ [name]) ≠ none := by
  unfold removeFile at hremove
  split at hremove
  · split at hremove
    · cases hremove
    · rename_i slot hslot
      split at hremove
      · rename_i hthere
        obtain ⟨p, hbase, hslot⟩ := s.tree.unlinkSlot_push hname hslot
        have hplace : slot.place = dir ++ [name] := by rw [hslot, Option.some.inj (hbase.symm.trans h.base)]
        cases hremove
        refine ⟨hplace, h.update slot hthere.1 hplace none (fun kind hkind => by cases hkind), ?_, ?_⟩
        · rw [← hplace]
          unfold fileAt
          rw [FileTree.node_update_self]
        · have hnone := hthere.2.1
          have hfree : s.tree.node slot.place ≠ some .dir := hthere.1
          rw [hplace] at hnone hfree
          unfold fileAt
          cases hnode : s.tree.node (dir ++ [name]) with
          | none => exact absurd hnode hnone
          | some kind =>
            obtain rfl | rfl := h.entries hnode
            · exact absurd hnode hfree
            · exact fun hfile => by cases hfile
      · cases hremove
  · cases hremove

end HoldsFiles

end FileStore
