import Zaphyl.Utf8
/-!
# UnixPath — paths as byte strings, and percent-encoding

A path is read by its components: empty pieces and `.` are skipped, except a `.` at the start of a relative path.  A
name pushed onto a path is its last component (`components_push`).  A percent-encoding of bytes decodes to them
(`PercentDecoder.decode_of_encodes`).
-/
abbrev PathBuf := Bytes

namespace UnixPath

def slash : UInt8 := 47

def dot : UInt8 := 46

inductive Component
  | rootDir
  | curDir
  | parentDir
  | normal (name : Bytes)
deriving DecidableEq

/-- The component of a piece between two slashes. -/
def ofPiece (piece : Bytes) : Option Component :=
  if piece = [] ∨ piece = [dot] then none
  else if piece = [dot, dot] then some .parentDir
  else some (.normal piece)

/-- What a path starts with besides its pieces' components. -/
def start (path : PathBuf) : List Component :=
  if path.head? = some slash then [.rootDir]
  else if (path.splitOn slash).head? = some [dot] then [.curDir]
  else []

/-- `Path::components`. -/
def components (path : PathBuf) : List Component := start path ++ (path.splitOn slash).filterMap ofPiece

/-- `PathBuf::push` of a relative path. -/
def push (path : PathBuf) (name : Bytes) : PathBuf :=
  if path = [] ∨ path.getLast? = some slash then path ++ name else path ++ slash :: name

/-- `Path::starts_with`. -/
def startsWith (path base : PathBuf) : Bool := (components base).isPrefixOf (components path)

/-- A file's name in its directory. -/
structure IsName (name : Bytes) : Prop where
  ne_nil : name ≠ []
  not_slash : slash ∉ name
  ne_dot : name ≠ [dot]
  ne_dots : name ≠ [dot, dot]

theorem ofPiece_of_isName {name : Bytes} (h : IsName name) : ofPiece name = some (.normal name) := by
  unfold ofPiece
  rw [if_neg (by simp [h.ne_nil, h.ne_dot]), if_neg h.ne_dots]

theorem ofPiece_eq_parentDir_iff {piece : Bytes} : ofPiece piece = some .parentDir ↔ piece = [dot, dot] := by
  unfold ofPiece
  split
  · rename_i h
    refine iff_of_false (fun h' => by cases h') ?_
    rintro rfl
    exact absurd h (by decide)
  · split
    · rename_i h
      exact ⟨fun _ => h, fun _ => rfl⟩
    · rename_i h
      exact iff_of_false (fun h' => by cases h') h

theorem splitOn_of_isName {name : Bytes} (h : IsName name) : name.splitOn slash = [name] := by
  have := List.splitOn_intercalate slash (fun l hl => by rw [List.mem_singleton.1 hl]; exact h.not_slash)
    (List.cons_ne_nil name [])
  simpa using this

/-- The pieces of a path with a name pushed onto it: an empty last piece gives way to the name. -/
theorem splitOn_push (path : PathBuf) {name : Bytes} (h : IsName name) : ∃ pieces last,
    path.splitOn slash = pieces ++ last ∧ (last = [] ∨ last = [[]]) ∧
      (push path name).splitOn slash = pieces ++ [name] := by
  unfold push
  by_cases hnil : path = []
  · subst hnil
    exact ⟨[], [[]], rfl, Or.inr rfl, splitOn_of_isName h⟩
  · by_cases hlast : path.getLast? = some slash
    · obtain ⟨p, rfl⟩ := List.getLast?_eq_some_iff.1 hlast
      refine ⟨p.splitOn slash, [[]], List.splitOn_append_cons_self _ _, Or.inr rfl, ?_⟩
      rw [if_pos (Or.inr hlast), List.append_assoc, List.singleton_append, List.splitOn_append_cons_self,
        splitOn_of_isName h]
    · refine ⟨path.splitOn slash, [], (List.append_nil _).symm, Or.inl rfl, ?_⟩
      rw [if_neg (by simp [hnil, hlast]), List.splitOn_append_cons_self, splitOn_of_isName h]

theorem head?_push (path : PathBuf) {name : Bytes} (h : IsName name) :
    (push path name).head? = some slash ↔ path.head? = some slash := by
  unfold push
  cases path with
  | nil =>
    obtain ⟨b, bs, rfl⟩ := List.exists_cons_of_ne_nil h.ne_nil
    have hb : b ≠ slash := fun hb => h.not_slash (by rw [hb]; exact List.mem_cons_self)
    simp [hb]
  | cons b path => split <;> rfl

/-- **A name pushed onto a path is its last component.** -/
theorem components_push (path : PathBuf) {name : Bytes} (h : IsName name) :
    components (push path name) = components path ++ [.normal name] := by
  obtain ⟨pieces, last, hpath, hlast, hpush⟩ := splitOn_push path h
  have hstart : start (push path name) = start path := by
    have hfirst : ((push path name).splitOn slash).head? = some [dot] ↔ (path.splitOn slash).head? = some [dot] := by
      rw [hpath, hpush]
      cases pieces with
      | cons piece pieces => rfl
      | nil =>
        have hne := h.ne_dot
        rcases hlast with rfl | rfl
        · exact absurd hpath (List.splitOn_ne_nil _ _)
        · simp [hne]
    unfold start
    simp only [head?_push path h, hfirst]
  have hnone : last.filterMap ofPiece = [] := by
    rcases hlast with rfl | rfl
    · rfl
    · rfl
  unfold components
  rw [hstart, hpath, hpush, List.filterMap_append, List.filterMap_append, hnone, List.append_nil, List.append_assoc,
    List.filterMap_cons_some (ofPiece_of_isName h), List.filterMap_nil]

/-- A path starts with what names were pushed onto. -/
theorem startsWith_foldl_push {names : List Bytes} (h : ∀ n ∈ names, IsName n) (path : PathBuf) :
    startsWith (names.foldl push path) path = true := by
  have hprefix : components path <+: components (names.foldl push path) := by
    induction names generalizing path with
    | nil => exact List.prefix_rfl
    | cons n names ih =>
      refine List.IsPrefix.trans ?_ (ih (fun m hm => h m (List.mem_cons_of_mem _ hm)) (push path n))
      rw [components_push path (h n List.mem_cons_self)]
      exact List.prefix_append _ _
  exact List.isPrefixOf_iff_prefix.2 hprefix

/-! ## Names in a relative path -/

/-- The names with a slash between each two. -/
def relative (names : List Bytes) : PathBuf := [slash].intercalate names

theorem splitOn_relative {names : List Bytes} (hne : names ≠ []) (h : ∀ n ∈ names, IsName n) :
    (relative names).splitOn slash = names :=
  List.splitOn_intercalate slash (fun n hn => (h n hn).not_slash) hne

theorem filterMap_ofPiece {names : List Bytes} (h : ∀ n ∈ names, IsName n) :
    names.filterMap ofPiece = names.map .normal := by
  induction names with
  | nil => rfl
  | cons n names ih =>
    rw [List.filterMap_cons_some (ofPiece_of_isName (h n List.mem_cons_self)),
      ih (fun m hm => h m (List.mem_cons_of_mem _ hm)), List.map_cons]

/-- The components of names behind a slash or none. -/
theorem components_relative {names : List Bytes} (hne : names ≠ []) (h : ∀ n ∈ names, IsName n) :
    components (relative names) = names.map .normal ∧
      components (slash :: relative names) = .rootDir :: names.map .normal := by
  obtain ⟨n, ns, rfl⟩ := List.exists_cons_of_ne_nil hne
  have hsplit := splitOn_relative hne h
  have hn := h n List.mem_cons_self
  have hhead : (relative (n :: ns)).head? ≠ some slash := by
    intro hs
    obtain ⟨rest, hrest⟩ := List.head?_eq_some_iff.1 hs
    rw [hrest, ← List.nil_append (slash :: rest), List.splitOn_append_cons_self] at hsplit
    exact hn.ne_nil (List.cons.inj hsplit).1.symm
  constructor
  · have hstart : start (relative (n :: ns)) = [] := by
      unfold start
      rw [if_neg hhead, hsplit, List.head?_cons, if_neg (fun hdot => hn.ne_dot (Option.some.inj hdot))]
    unfold components
    rw [hstart, hsplit, filterMap_ofPiece h, List.nil_append]
  · have hstart : start (slash :: relative (n :: ns)) = [.rootDir] := if_pos rfl
    have hpieces : (slash :: relative (n :: ns)).splitOn slash = [] :: n :: ns := by
      rw [← List.nil_append (slash :: relative _), List.splitOn_append_cons_self, hsplit]
      rfl
    unfold components
    rw [hstart, hpieces, List.filterMap_cons_none rfl, filterMap_ofPiece h, List.singleton_append]

/-! ## Percent-encoding -/

def percent : UInt8 := 37

/-- `char::to_digit(16)` of a byte. -/
def hexValue (b : UInt8) : Option UInt8 :=
  if 48 ≤ b ∧ b ≤ 57 then some (b - 48)
  else if 65 ≤ b ∧ b ≤ 70 then some (b - 55)
  else if 97 ≤ b ∧ b ≤ 102 then some (b - 87)
  else none

/-- The byte of two hexadecimal digits. -/
def hexByte (h l : UInt8) : Option UInt8 := do
  let h ← hexValue h
  let l ← hexValue l
  some (h * 16 + l)

/-- What is relied on `percent_decode` for: a byte stands for itself, and `%` with two hexadecimal digits behind it for
the byte that they write. -/
structure PercentDecoder where
  decode : Bytes → Bytes
  nil : decode [] = []
  literal : ∀ {b : UInt8} (rest : Bytes), b ≠ percent → decode (b :: rest) = b :: decode rest
  escaped : ∀ {h l b : UInt8} (rest : Bytes), hexByte h l = some b →
    decode (percent :: h :: l :: rest) = b :: decode rest

/-- A decoder that leaves a `%` without two digits behind it as it is. -/
def percentDecode : Bytes → Bytes
  | [] => []
  | [b] => [b]
  | [b, c] => [b, c]
  | b :: h :: l :: rest =>
    if b = percent then
      match hexByte h l with
      | some byte => byte :: percentDecode rest
      | none => b :: percentDecode (h :: l :: rest)
    else b :: percentDecode (h :: l :: rest)

/-- The text of one byte: itself, unless it is `%`, or `%` and two hexadecimal digits of either case. -/
inductive EncodesByte (b : UInt8) : Bytes → Prop
  | literal (h : b ≠ percent) : EncodesByte b [b]
  | escaped {h l : UInt8} (hb : hexByte h l = some b) : EncodesByte b [percent, h, l]

/-- **A percent-encoding of bytes**: one text after the other, each byte's in any form. -/
inductive Encodes : Bytes → Bytes → Prop
  | nil : Encodes [] []
  | cons {b : UInt8} {text bs texts : Bytes} (hb : EncodesByte b text) (hbs : Encodes bs texts) :
      Encodes (b :: bs) (text ++ texts)

theorem percentDecode_cons_of_ne {b : UInt8} (hb : b ≠ percent) (rest : Bytes) :
    percentDecode (b :: rest) = b :: percentDecode rest := by
  match rest with
  | [] => rfl
  | [c] => rfl
  | h :: l :: rest => rw [percentDecode, if_neg hb]

def lenientDecoder : PercentDecoder where
  decode := percentDecode
  nil := rfl
  literal rest hb := percentDecode_cons_of_ne hb rest
  escaped rest hbyte := by rw [percentDecode, if_pos rfl, hbyte]

/-- **A percent-encoding decodes to the bytes it stands for.** -/
theorem PercentDecoder.decode_of_encodes (decoder : PercentDecoder) {bs texts : Bytes} (h : Encodes bs texts) :
    decoder.decode texts = bs := by
  induction h with
  | nil => exact decoder.nil
  | cons hb _ ih =>
    cases hb with
    | literal hne => rw [List.singleton_append, decoder.literal _ hne, ih]
    | escaped hbyte =>
      rw [List.cons_append, List.cons_append, List.cons_append, List.nil_append, decoder.escaped _ hbyte, ih]

end UnixPath
