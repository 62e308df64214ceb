import Zaphyl.UnixPath
/-!
# FileTree — what a file system answers about a path

`FileSystem` is the answers and what they promise.  A tree of directories, files and symbolic links gives such answers
(`FileTree.fileSystem`): a path is walked from the root or the working directory, links are followed, and what is
reached is named by its own path.
-/
open UnixPath

/-- What the file system answers about a path.  All but `isSymlink` follow symbolic links. -/
structure FileSystem where
  canonicalize : PathBuf → Option PathBuf
  isDir : PathBuf → Bool
  isFile : PathBuf → Bool
  isSymlink : PathBuf → Bool
  canonicalize_canonicalize : ∀ {p q}, canonicalize p = some q → canonicalize q = some q
  isFile_canonicalize : ∀ {p q}, canonicalize p = some q → isFile q = isFile p
  isDir_of_isFile : ∀ {p}, isFile p = true → isDir p = false
  /-- A name that is no link leads from a path's canonical form to its own. -/
  canonicalize_push : ∀ {p q name}, IsName name → canonicalize p = some q → isSymlink (push p name) = false →
    (isDir (push p name) = true ∨ isFile (push p name) = true) → canonicalize (push p name) = some (push q name)

namespace FileSystem

variable {fs : FileSystem}

/-- The names lead from the path to a regular file, through directories and no symbolic link. -/
inductive Reaches (fs : FileSystem) : PathBuf → List Bytes → Prop
  | file {p name} (hname : IsName name) (hlink : fs.isSymlink (push p name) = false)
      (hfile : fs.isFile (push p name) = true) : Reaches fs p [name]
  | dir {p name names} (hname : IsName name) (hlink : fs.isSymlink (push p name) = false)
      (hdir : fs.isDir (push p name) = true) (hrest : Reaches fs (push p name) names) : Reaches fs p (name :: names)

namespace Reaches

theorem ne_nil {p : PathBuf} {names : List Bytes} (h : Reaches fs p names) : names ≠ [] := by
  cases h with
  | file => exact List.cons_ne_nil _ _
  | dir => exact List.cons_ne_nil _ _

theorem isName {p : PathBuf} {names : List Bytes} (h : Reaches fs p names) : ∀ n ∈ names, IsName n := by
  induction h with
  | file hname =>
    intro n hn
    rw [List.mem_singleton.1 hn]
    exact hname
  | dir hname _ _ _ ih =>
    intro n hn
    rcases List.mem_cons.1 hn with rfl | hn
    · exact hname
    · exact ih n hn

theorem isFile {p : PathBuf} {names : List Bytes} (h : Reaches fs p names) :
    fs.isFile (names.foldl push p) = true := by
  induction h with
  | file _ _ hfile => exact hfile
  | dir _ _ _ _ ih => exact ih

/-- **Without links the canonical path of the file is the names behind the directory's.** -/
theorem canonicalize {p q : PathBuf} {names : List Bytes} (h : Reaches fs p names) (hp : fs.canonicalize p = some q) :
    fs.canonicalize (names.foldl push p) = some (names.foldl push q) := by
  induction h generalizing q with
  | file hname hlink hfile => exact fs.canonicalize_push hname hp hlink (Or.inr hfile)
  | dir hname hlink hdir _ ih => exact ih (fs.canonicalize_push hname hp hlink (Or.inl hdir))

end Reaches
end FileSystem

/-! ## Trees -/

inductive Node
  | dir
  | file
  | symlink (target : PathBuf)
  | other
deriving DecidableEq

/-- What stands at each path of names from the root. -/
structure FileTree where
  node : List Bytes → Option Node
  cwd : List Bytes
  root_dir : node [] = some .dir
  cwd_dir : node cwd = some .dir
  parent_dir : ∀ {p name}, node (p ++ [name]) ≠ none → node p = some .dir
  isName : ∀ {p name}, node (p ++ [name]) ≠ none → IsName name

namespace FileTree

variable (t : FileTree)

/-- The place where the pieces lead, up to the first symbolic link: its target and the pieces behind it. -/
def descend : List Bytes → List Bytes → Option (List Bytes × Option (PathBuf × List Bytes))
  | place, [] => some (place, none)
  | place, piece :: rest =>
    if t.node place ≠ some .dir then none
    else if piece = [] ∨ piece = [dot] then descend place rest
    else if piece = [dot, dot] then descend place.dropLast rest
    else
      match t.node (place ++ [piece]) with
      | none => none
      | some (.symlink target) => some (place, some (target, rest))
      | some _ => descend (place ++ [piece]) rest

/-- Where a path starts. -/
def origin (path : PathBuf) (place : List Bytes) : List Bytes := if path.head? = some slash then [] else place

/-- The place where the pieces lead, through at most `links` symbolic links. -/
def walk : Nat → List Bytes → List Bytes → Option (List Bytes)
  | links, place, pieces =>
    match t.descend place pieces with
    | none => none
    | some (place, none) => some place
    | some (place, some (target, rest)) =>
      match links with
      | 0 => none
      | links + 1 => if target = [] then none else walk links (origin target place) (target.splitOn slash ++ rest)

def maxLinks : Nat := 40

def place (path : PathBuf) : Option (List Bytes) :=
  if path = [] then none else t.walk maxLinks (origin path t.cwd) (path.splitOn slash)

def absolute (place : List Bytes) : PathBuf := slash :: relative place

def canonicalize (path : PathBuf) : Option PathBuf := (t.place path).map absolute

def isDir (path : PathBuf) : Bool := (t.place path).bind t.node == some .dir

def isFile (path : PathBuf) : Bool := (t.place path).bind t.node == some .file

/-- Whether the last name of the path is a link. -/
def isSymlink (path : PathBuf) : Bool :=
  match t.walk maxLinks (origin path t.cwd) (path.splitOn slash).dropLast with
  | none => false
  | some place =>
    match t.node (place ++ (path.splitOn slash).getLast?.toList) with
    | some (.symlink _) => true
    | _ => false

/-! ## Places -/

/-- Something stands at the place, and it is not a link. -/
def Real (place : List Bytes) : Prop := t.node place ≠ none ∧ ∀ target, t.node place ≠ some (.symlink target)

theorem real_of_dir {place : List Bytes} (h : t.node place = some .dir) : t.Real place := by
  unfold Real
  rw [h]
  exact ⟨fun h => (by cases h), fun _ h => (by cases h)⟩

/-- Above what stands anywhere there are directories. -/
theorem node_dir_of_append {p : List Bytes} : ∀ {names : List Bytes}, names ≠ [] → t.node (p ++ names) ≠ none →
    t.node p = some .dir := by
  intro names
  induction names using List.reverseRecOn with
  | nil => exact fun h => absurd rfl h
  | append_singleton names n ih =>
    intro _ hnode
    rw [← List.append_assoc] at hnode
    have hdir := t.parent_dir hnode
    by_cases hnil : names = []
    · rwa [hnil, List.append_nil] at hdir
    · exact ih hnil (by rw [hdir]; simp)

theorem real_dropLast {place : List Bytes} (h : t.Real place) : t.Real place.dropLast := by
  rcases List.eq_nil_or_concat place with rfl | ⟨p, n, rfl⟩
  · exact h
  · rw [List.concat_eq_append, List.dropLast_concat]
    rw [List.concat_eq_append] at h
    exact t.real_of_dir (t.parent_dir h.1)

theorem isName_of_node {place : List Bytes} (h : t.node place ≠ none) : ∀ n ∈ place, IsName n := by
  induction place using List.reverseRecOn with
  | nil =>
    intro n hn
    cases hn
  | append_singleton p m ih =>
    intro n hn
    have hdir := t.parent_dir h
    rcases List.mem_append.1 hn with hn | hn
    · exact ih (by rw [hdir]; simp) n hn
    · rw [List.mem_singleton.1 hn]
      exact t.isName h

/-! ## Walks -/

theorem descend_cons (place : List Bytes) (piece : Bytes) (rest : List Bytes) :
    t.descend place (piece :: rest) =
      if t.node place ≠ some .dir then none
      else if piece = [] ∨ piece = [dot] then t.descend place rest
      else if piece = [dot, dot] then t.descend place.dropLast rest
      else
        match t.node (place ++ [piece]) with
        | none => none
        | some (.symlink target) => some (place, some (target, rest))
        | some _ => t.descend (place ++ [piece]) rest := by
  rw [descend]

/-- A step into what is there and no link. -/
theorem descend_name {place : List Bytes} {name : Bytes} (h : t.Real (place ++ [name])) (rest : List Bytes) :
    t.descend place (name :: rest) = t.descend (place ++ [name]) rest := by
  have hname := t.isName h.1
  rw [descend_cons, if_neg (not_not.2 (t.parent_dir h.1)), if_neg (by simp [hname.ne_nil, hname.ne_dot]),
    if_neg hname.ne_dots]
  cases hnode : t.node (place ++ [name]) with
  | none => exact absurd hnode h.1
  | some kind =>
    cases kind with
    | symlink target => exact absurd hnode (h.2 target)
    | dir => rfl
    | file => rfl
    | other => rfl

theorem descend_names {place : List Bytes} : ∀ {names : List Bytes}, t.Real (place ++ names) →
    t.descend place names = some (place ++ names, none) := by
  intro names
  induction names generalizing place with
  | nil =>
    intro _
    rw [List.append_nil]
    rfl
  | cons n names ih =>
    intro h
    have hsplit : place ++ n :: names = place ++ [n] ++ names := by simp
    rw [hsplit] at h ⊢
    have hn : t.Real (place ++ [n]) := by
      by_cases hnil : names = []
      · rwa [hnil, List.append_nil] at h
      · exact t.real_of_dir (t.node_dir_of_append hnil h.1)
    rw [t.descend_name hn, ih h]

/-- What a walk stands on is no link. -/
theorem real_of_descend : ∀ {pieces place place' : List Bytes} {link : Option (PathBuf × List Bytes)},
    t.Real place → t.descend place pieces = some (place', link) → t.Real place'
  | [], place, place', link, hplace, h => by
    have hsame : place = place' := congrArg Prod.fst (Option.some.inj h)
    rwa [← hsame]
  | piece :: rest, place, place', link, hplace, h => by
    rw [descend_cons] at h
    split at h
    · cases h
    · split at h
      · exact real_of_descend hplace h
      · split at h
        · exact real_of_descend (t.real_dropLast hplace) h
        · split at h
          · cases h
          · have hsame : place = place' := congrArg Prod.fst (Option.some.inj h)
            rwa [← hsame]
          · rename_i kind hlink hnode
            refine real_of_descend ⟨by rw [hnode]; simp, fun target ht => ?_⟩ h
            rw [hnode] at ht
            exact hlink target (Option.some.inj ht)

theorem real_origin {path : PathBuf} {place : List Bytes} (h : t.Real place) : t.Real (origin path place) := by
  unfold origin
  split
  · exact t.real_of_dir t.root_dir
  · exact h

theorem walk_of_descend {links : Nat} {place pieces place' : List Bytes}
    (h : t.descend place pieces = some (place', none)) : t.walk links place pieces = some place' := by
  unfold walk
  rw [h]

theorem walk_of_link {links : Nat} {place pieces p rest : List Bytes} {target : PathBuf}
    (h : t.descend place pieces = some (p, some (target, rest))) (htarget : target ≠ []) :
    t.walk (links + 1) place pieces = t.walk links (origin target p) (target.splitOn slash ++ rest) := by
  rw [walk, h]
  simp only
  rw [if_neg htarget]

/-- **What holds of every walk**: it holds where the pieces lead to a place, and is kept by each link that is
followed. -/
theorem walk_induction {motive : Nat → List Bytes → List Bytes → List Bytes → Prop}
    (arrives : ∀ {links : Nat} {place pieces place' : List Bytes}, t.descend place pieces = some (place', none) →
      motive links place pieces place')
    (follows : ∀ {links : Nat} {place pieces p rest place' : List Bytes} {target : PathBuf},
      t.descend place pieces = some (p, some (target, rest)) → target ≠ [] →
        motive links (origin target p) (target.splitOn slash ++ rest) place' → motive (links + 1) place pieces place') :
    ∀ {links : Nat} {place pieces place' : List Bytes}, t.walk links place pieces = some place' →
      motive links place pieces place' := by
  intro links
  induction links with
  | zero =>
    intro place pieces place' h
    unfold walk at h
    split at h
    · cases h
    · rename_i hdescend
      rw [← Option.some.inj h]
      exact arrives hdescend
    · cases h
  | succ links ih =>
    intro place pieces place' h
    unfold walk at h
    split at h
    · cases h
    · rename_i hdescend
      rw [← Option.some.inj h]
      exact arrives hdescend
    · rename_i hdescend
      simp only at h
      split at h
      · cases h
      · rename_i htarget
        exact follows hdescend htarget (ih h)

theorem real_of_walk {links : Nat} {place pieces place' : List Bytes} (hplace : t.Real place)
    (h : t.walk links place pieces = some place') : t.Real place' := by
  refine t.walk_induction (motive := fun _ place _ place' => t.Real place → t.Real place') ?_ ?_ h hplace
  · exact fun hdescend hplace => t.real_of_descend hplace hdescend
  · exact fun hdescend _ ih hplace => ih (t.real_origin (t.real_of_descend hplace hdescend))

theorem real_of_place {path : PathBuf} {place : List Bytes} (h : t.place path = some place) : t.Real place := by
  unfold FileTree.place at h
  split at h
  · cases h
  · exact t.real_of_walk (t.real_origin (t.real_of_dir t.cwd_dir)) h

theorem descend_append (ps qs : List Bytes) : ∀ place : List Bytes, t.descend place (ps ++ qs) =
    match t.descend place ps with
    | none => none
    | some (place', none) => t.descend place' qs
    | some (place', some (target, rest)) => some (place', some (target, rest ++ qs)) := by
  induction ps with
  | nil => exact fun place => rfl
  | cons p ps ih =>
    intro place
    rw [List.cons_append, descend_cons, descend_cons]
    split
    · rfl
    · split
      · exact ih place
      · split
        · exact ih _
        · cases t.node (place ++ [p]) with
          | none => rfl
          | some kind =>
            cases kind with
            | symlink target => rfl
            | dir => exact ih _
            | file => exact ih _
            | other => exact ih _

/-- A walk goes on where its first part led. -/
theorem walk_append {qs : List Bytes} {links : Nat} {place ps place' : List Bytes}
    (h : t.walk links place ps = some place') (hqs : ∀ p link, t.descend place' qs ≠ some (p, some link)) :
    t.walk links place (ps ++ qs) = (t.descend place' qs).map Prod.fst := by
  refine t.walk_induction (motive := fun links place ps place' =>
    (∀ p link, t.descend place' qs ≠ some (p, some link)) →
      t.walk links place (ps ++ qs) = (t.descend place' qs).map Prod.fst) ?_ ?_ h hqs
  · intro links place ps place' hdescend hqs
    unfold walk
    rw [descend_append, hdescend]
    simp only
    cases hon : t.descend place' qs with
    | none => rfl
    | some r =>
      obtain ⟨p, link⟩ := r
      cases link with
      | none => rfl
      | some link => exact absurd hon (hqs p link)
  · intro links place ps p rest place' target hdescend htarget ih hqs
    have hlink : t.descend place (ps ++ qs) = some (p, some (target, rest ++ qs)) := by
      rw [descend_append, hdescend]
    rw [t.walk_of_link hlink htarget, ← List.append_assoc]
    exact ih hqs

theorem descend_slash {p p' : List Bytes} {link : Option (PathBuf × List Bytes)}
    (h : t.descend p [[]] = some (p', link)) : p' = p ∧ link = none := by
  rw [descend_cons] at h
  split at h
  · cases h
  · cases h
    exact ⟨rfl, rfl⟩

/-- A slash at the end leads nowhere else. -/
theorem walk_of_slash {links : Nat} {place ps place' : List Bytes}
    (h : t.walk links place (ps ++ [[]]) = some place') : t.walk links place ps = some place' := by
  refine t.walk_induction (motive := fun links place pieces place' =>
    ∀ ps, pieces = ps ++ [[]] → t.walk links place ps = some place') ?_ ?_ h ps rfl
  · rintro links place _ place' hdescend ps rfl
    rw [descend_append] at hdescend
    apply t.walk_of_descend
    split at hdescend
    · cases hdescend
    · rename_i p hps
      rw [hps, (t.descend_slash hdescend).1]
    · cases hdescend
  · rintro links place _ p rest place' target hdescend htarget ih ps rfl
    rw [descend_append] at hdescend
    split at hdescend
    · cases hdescend
    · cases (t.descend_slash hdescend).2
    · rename_i hps
      cases hdescend
      rw [t.walk_of_link hps htarget]
      exact ih _ (List.append_assoc ..).symm

/-! ## Canonical paths -/

theorem relative_append {p : List Bytes} (name : Bytes) (hp : p ≠ []) :
    relative (p ++ [name]) = relative p ++ slash :: name := by
  induction p with
  | nil => exact absurd rfl hp
  | cons n ns ih =>
    unfold relative at ih ⊢
    by_cases hnil : ns = []
    · subst hnil
      rw [List.singleton_append, List.intercalate_cons_cons, List.intercalate_singleton, List.intercalate_singleton,
        List.append_assoc, List.singleton_append]
    · rw [List.cons_append, List.intercalate_cons_of_ne_nil (by simp), List.intercalate_cons_of_ne_nil hnil,
        ih hnil]
      simp

theorem absolute_append {place : List Bytes} (name : Bytes) (h : ∀ n ∈ place, IsName n) :
    absolute (place ++ [name]) = push (absolute place) name := by
  unfold push absolute
  by_cases hnil : place = []
  · subst hnil
    have hroot : slash :: relative [] = [slash] := rfl
    have hlast : [slash] = [] ∨ [slash].getLast? = some slash := Or.inr rfl
    rw [hroot, if_pos hlast, List.nil_append, relative, List.intercalate_singleton, List.singleton_append]
  · have hlast : (slash :: relative place).getLast? ≠ some slash := by
      obtain ⟨p, n, rfl⟩ := (List.eq_nil_or_concat place).resolve_left hnil
      rw [List.concat_eq_append] at h ⊢
      have hn := h n (by simp)
      obtain ⟨front, hfront⟩ : ∃ front, slash :: relative (p ++ [n]) = front ++ n := by
        by_cases hp : p = []
        · subst hp
          exact ⟨[slash], by rw [relative, List.nil_append, List.intercalate_singleton, List.singleton_append]⟩
        · exact ⟨slash :: relative p ++ [slash], by rw [relative_append n hp]; simp⟩
      rw [hfront, List.getLast?_append_of_ne_nil _ hn.ne_nil]
      exact fun hslash => hn.not_slash (List.mem_of_getLast? hslash)
    rw [if_neg (by simp [hlast]), relative_append name hnil]
    rfl

/-- **A canonical path leads to its place.** -/
theorem place_absolute {place : List Bytes} (h : t.Real place) : t.place (absolute place) = some place := by
  have hnames := t.isName_of_node h.1
  have hdescend : t.descend [] ((absolute place).splitOn slash) = some (place, none) := by
    have hroot : ∀ rest, t.descend [] ([] :: rest) = t.descend [] rest := by
      intro rest
      rw [descend_cons, if_neg (not_not.2 t.root_dir), if_pos (Or.inl rfl)]
    have hsplit : (absolute place).splitOn slash = [] :: (relative place).splitOn slash := by
      unfold absolute
      rw [← List.nil_append (slash :: relative _), List.splitOn_append_cons_self]
      rfl
    rw [hsplit, hroot]
    by_cases hnil : place = []
    · subst hnil
      exact hroot []
    · rw [splitOn_relative hnil hnames]
      exact t.descend_names h
  unfold FileTree.place
  rw [if_neg (show absolute place ≠ [] from List.cons_ne_nil _ _)]
  show t.walk maxLinks [] _ = _
  unfold walk
  rw [hdescend]

theorem canonicalize_canonicalize {p q : PathBuf} (h : t.canonicalize p = some q) : t.canonicalize q = some q := by
  obtain ⟨place, hplace, rfl⟩ := Option.map_eq_some_iff.1 h
  unfold canonicalize
  rw [t.place_absolute (t.real_of_place hplace)]
  rfl

theorem isFile_canonicalize {p q : PathBuf} (h : t.canonicalize p = some q) : t.isFile q = t.isFile p := by
  obtain ⟨place, hplace, rfl⟩ := Option.map_eq_some_iff.1 h
  unfold isFile
  rw [t.place_absolute (t.real_of_place hplace), hplace]

theorem isDir_of_isFile {p : PathBuf} (h : t.isFile p = true) : t.isDir p = false := by
  unfold isFile at h
  unfold isDir
  rw [beq_iff_eq.1 h]
  rfl

/-- A name that is no link leads into what it names, or nowhere. -/
theorem descend_step {place : List Bytes} {name : Bytes} (hname : IsName name)
    (hlink : ∀ target, t.node (place ++ [name]) ≠ some (.symlink target)) :
    t.descend place [name] = none ∨ t.descend place [name] = some (place ++ [name], none) := by
  by_cases hnone : t.node (place ++ [name]) = none
  · left
    rw [descend_cons, hnone]
    split
    · rfl
    · rw [if_neg (by simp [hname.ne_nil, hname.ne_dot]), if_neg hname.ne_dots]
  · exact Or.inr (t.descend_name ⟨hnone, hlink⟩ [])

/-- **A name that is no link leads from a place into what it names there.** -/
theorem place_push {p : PathBuf} {name : Bytes} {place : List Bytes} (hname : IsName name) (hp : t.place p = some place)
    (hlink : t.isSymlink (push p name) = false) (hsome : t.place (push p name) ≠ none) :
    t.place (push p name) = some (place ++ [name]) := by
  obtain ⟨pieces, last, hpath, hlast, hpush⟩ := splitOn_push p hname
  have horigin : origin (push p name) t.cwd = origin p t.cwd := by
    unfold origin
    simp only [head?_push p hname]
  have hwalk : t.walk maxLinks (origin p t.cwd) pieces = some place := by
    unfold FileTree.place at hp
    split at hp
    · cases hp
    · rw [hpath] at hp
      rcases hlast with rfl | rfl
      · rwa [List.append_nil] at hp
      · exact t.walk_of_slash hp
  have hnode : ∀ target, t.node (place ++ [name]) ≠ some (.symlink target) := by
    intro target htarget
    unfold isSymlink at hlink
    rw [horigin, hpush, List.dropLast_concat, hwalk, List.getLast?_concat] at hlink
    simp only [Option.toList_some, htarget] at hlink
    cases hlink
  have hstep := t.descend_step hname hnode
  have hnolink : ∀ p link, t.descend place [name] ≠ some (p, some link) := by
    intro p link h
    rcases hstep with hstep | hstep
    · rw [hstep] at h
      cases h
    · rw [hstep] at h
      cases h
  have hplace : t.place (push p name) = (t.descend place [name]).map Prod.fst := by
    unfold FileTree.place
    rw [if_neg (by unfold push; split <;> simp [hname.ne_nil]), horigin, hpush]
    exact t.walk_append hwalk hnolink
  rcases hstep with hstep | hstep
  · rw [hplace, hstep] at hsome
    exact absurd rfl hsome
  · rw [hplace, hstep]
    rfl

/-- **A tree answers as a file system.** -/
def fileSystem : FileSystem where
  canonicalize := t.canonicalize
  isDir := t.isDir
  isFile := t.isFile
  isSymlink := t.isSymlink
  canonicalize_canonicalize := t.canonicalize_canonicalize
  isFile_canonicalize := t.isFile_canonicalize
  isDir_of_isFile := t.isDir_of_isFile
  canonicalize_push := by
    intro p q name hname hp hlink hthere
    obtain ⟨place, hplace, rfl⟩ := Option.map_eq_some_iff.1 hp
    have hsome : t.place (push p name) ≠ none := by
      intro hnone
      rcases hthere with h | h
      · rw [FileTree.isDir, hnone] at h
        cases h
      · rw [FileTree.isFile, hnone] at h
        cases h
    have hreal := t.real_of_place hplace
    unfold FileTree.canonicalize
    rw [t.place_push hname hplace hlink hsome, Option.map_some, absolute_append name (t.isName_of_node hreal.1)]

/-! ## Trees from a list -/

def entryAt (entries : List (List Bytes × Node)) (place : List Bytes) : Option Node :=
  if place = [] then some .dir else entries.lookup place

/-- Every entry has a name and stands in a directory. -/
def Listed (entries : List (List Bytes × Node)) : Bool :=
  entries.all (fun e => entryAt entries e.1.dropLast == some .dir &&
    e.1.getLast?.all (fun name => name != [] && !name.contains slash && name != [dot] && name != [dot, dot]))

theorem mem_of_entryAt {entries : List (List Bytes × Node)} {p : List Bytes} {name : Bytes}
    (h : entryAt entries (p ++ [name]) ≠ none) : ∃ e ∈ entries, e.1 = p ++ [name] := by
  unfold entryAt at h
  rw [if_neg (by simp)] at h
  obtain ⟨kind, hkind⟩ := Option.ne_none_iff_exists'.1 h
  obtain ⟨before, after, hentries, -⟩ := List.lookup_eq_some_iff.1 hkind
  exact ⟨(p ++ [name], kind), by rw [hentries]; simp, rfl⟩

/-- The tree of the entries. -/
def ofEntries (entries : List (List Bytes × Node)) (cwd : List Bytes) (hentries : Listed entries = true)
    (hcwd : entryAt entries cwd = some .dir) : FileTree where
  node := entryAt entries
  cwd := cwd
  root_dir := rfl
  cwd_dir := hcwd
  parent_dir := by
    intro p name h
    obtain ⟨e, he, hpath⟩ := mem_of_entryAt h
    have hlisted := List.all_eq_true.1 hentries e he
    rw [Bool.and_eq_true, hpath, List.dropLast_concat, beq_iff_eq] at hlisted
    exact hlisted.1
  isName := by
    intro p name h
    obtain ⟨e, he, hpath⟩ := mem_of_entryAt h
    have hlisted := List.all_eq_true.1 hentries e he
    rw [Bool.and_eq_true, hpath, List.getLast?_concat] at hlisted
    have hname := hlisted.2
    simp only [Option.all_some, Bool.and_eq_true, bne_iff_ne, Bool.not_eq_true', List.contains_eq_mem,
      decide_eq_false_iff_not] at hname
    exact ⟨hname.1.1.1, hname.1.1.2, hname.1.2, hname.2⟩

end FileTree
