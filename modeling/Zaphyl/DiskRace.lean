import Zaphyl.CacheStore
import Zaphyl.Runs
/-!
# DiskRace — puts and reads of one cache file, interleaved

All keys of one hash share a file and a temporary file.  A put creates or truncates the temporary file, writes its
encoding in chunks through the open handle and renames; a read opens the file and reads it in chunks to its end.  Where
no put opens the temporary file while another is under way, every content read is a whole encoding
(`reads_whole_encoding`); two puts at once can make a file of both (`overlapping_puts_mix`).
-/
namespace Zaphyl

structure DiskPut where
  key : Str
  expiry : SystemTime
  response : CachedResponse
deriving DecidableEq

def DiskPut.encoding (p : DiskPut) : Bytes := Codec.encode p.key p.expiry p.response

/-- A put between the open of its temporary file and the rename, the first `written` bytes of its encoding written. -/
structure Writer where
  put : DiskPut
  inode : Nat
  written : Nat

structure FileRead where
  inode : Nat
  bytes : Bytes

/-- The file of one hash, its temporary file and what is open; `puts` and `observed` are what was put and read. -/
structure DiskPath where
  contents : Nat → Bytes
  next : Nat
  tmp : Option Nat
  file : Option Nat
  writers : List Writer
  reads : List FileRead
  puts : List DiskPut
  observed : List Bytes

inductive DiskEvent
  | create (p : DiskPut)
  | write (i n : Nat)
  | rename (i : Nat)
  /-- A write that fails, or a process that ends. -/
  | fail (i : Nat)
  | evict
  | openFile
  | read (i n : Nat)
  | endOfFile (i : Nat)

/-- A write through a handle; a gap before it reads as zeros. -/
def writeAt (content : Bytes) (offset : Nat) (chunk : Bytes) : Bytes :=
  content.take offset ++ List.replicate (offset - content.length) 0 ++ chunk ++ content.drop (offset + chunk.length)

namespace DiskPath

def start : DiskPath := ⟨fun _ => [], 0, none, none, [], [], [], []⟩

/-- The temporary file is the empty file `inode`, and the put writes to it. -/
def opened (s : DiskPath) (p : DiskPut) (inode next : Nat) : DiskPath :=
  { s with
    contents := Function.update s.contents inode []
    next := next
    tmp := some inode
    writers := s.writers ++ [⟨p, inode, 0⟩]
    puts := s.puts ++ [p] }

/-- `File::create` truncates the temporary file that is there. -/
def create (s : DiskPath) (p : DiskPut) : DiskPath :=
  match s.tmp with
  | some inode => s.opened p inode s.next
  | none => s.opened p s.next (s.next + 1)

def writeChunk (s : DiskPath) (i n : Nat) (w : Writer) : DiskPath :=
  let chunk := (w.put.encoding.drop w.written).take n
  { s with
    contents := Function.update s.contents w.inode (writeAt (s.contents w.inode) w.written chunk)
    writers := s.writers.set i { w with written := w.written + chunk.length } }

/-- The temporary file takes the file's name, if it has one still. -/
def renamed (s : DiskPath) (i : Nat) : DiskPath :=
  match s.tmp with
  | some inode => { s with tmp := none, file := some inode, writers := s.writers.eraseIdx i }
  | none => { s with writers := s.writers.eraseIdx i }

def step (s : DiskPath) : DiskEvent → Option DiskPath
  | .create p => some (s.create p)
  | .write i n => do
    let w ← s.writers[i]?
    if w.written < w.put.encoding.length then some (s.writeChunk i n w) else none
  | .rename i => do
    let w ← s.writers[i]?
    if w.written = w.put.encoding.length then some (s.renamed i) else none
  | .fail i => some { s with writers := s.writers.eraseIdx i }
  | .evict => some { s with file := none }
  | .openFile => do
    let inode ← s.file
    some { s with reads := s.reads ++ [⟨inode, []⟩] }
  | .read i n => do
    let r ← s.reads[i]?
    let chunk := ((s.contents r.inode).drop r.bytes.length).take n
    some { s with reads := s.reads.set i { r with bytes := r.bytes ++ chunk } }
  | .endOfFile i => do
    let r ← s.reads[i]?
    if (s.contents r.inode).length ≤ r.bytes.length then
      some { s with reads := s.reads.eraseIdx i, observed := s.observed ++ [r.bytes] }
    else none

def Step (s : DiskPath) (e : DiskEvent) (t : DiskPath) : Prop := s.step e = some t

/-- A put opens the temporary file while no other one is under way. -/
def Alone (s : DiskPath) : DiskEvent → Prop
  | .create _ => s.writers = []
  | _ => True

/-! ## Whole files -/

/-- The file is the encoding of an entry that was put. -/
def Whole (s : DiskPath) (inode : Nat) : Prop := ∃ p ∈ s.puts, s.contents inode = p.encoding

/-- **Nobody writes to a file that has its name.** -/
structure Sound (s : DiskPath) : Prop where
  single : s.writers.length ≤ 1
  writer : ∀ w ∈ s.writers, s.tmp = some w.inode ∧ w.written ≤ w.put.encoding.length ∧
    s.contents w.inode = w.put.encoding.take w.written ∧ w.put ∈ s.puts
  tmp : ∀ inode ∈ s.tmp, inode < s.next ∧ s.file ≠ some inode ∧ ∀ r ∈ s.reads, r.inode ≠ inode
  file : ∀ inode ∈ s.file, inode < s.next ∧ s.Whole inode
  reads : ∀ r ∈ s.reads, r.inode < s.next ∧ s.Whole r.inode ∧ r.bytes <+: s.contents r.inode
  observed : ∀ bytes ∈ s.observed, ∃ p ∈ s.puts, bytes = p.encoding

theorem sound_start : start.Sound := by
  constructor <;> simp [start]

theorem Whole.mono {s t : DiskPath} {inode : Nat} (h : s.Whole inode) (hputs : ∀ p ∈ s.puts, p ∈ t.puts)
    (hcontents : t.contents inode = s.contents inode) : t.Whole inode := by
  obtain ⟨p, hp, hwhole⟩ := h
  exact ⟨p, hputs p hp, hcontents.trans hwhole⟩

/-- A chunk behind what is written. -/
theorem writeAt_take {encoding : Bytes} {written : Nat} (hle : written ≤ encoding.length) (n : Nat) :
    writeAt (encoding.take written) written ((encoding.drop written).take n) =
      encoding.take (written + ((encoding.drop written).take n).length) := by
  have hlen : (encoding.take written).length = written := by rw [List.length_take, Nat.min_eq_left hle]
  have hchunk : (encoding.drop written).take n =
      (encoding.drop written).take ((encoding.drop written).take n).length := by
    rw [List.length_take]
    rcases Nat.le_total n (encoding.drop written).length with h | h
    · rw [Nat.min_eq_left h]
    · rw [Nat.min_eq_right h, List.take_of_length_le h, List.take_length]
  have hbehind : (encoding.take written).drop (written + ((encoding.drop written).take n).length) = [] :=
    List.drop_eq_nil_of_le (by rw [hlen]; exact Nat.le_add_right _ _)
  unfold writeAt
  rw [hbehind, hlen, Nat.sub_self, List.replicate_zero, List.append_nil, List.append_nil, List.take_take, Nat.min_self,
    List.take_add, ← hchunk]

/-! ## Steps -/

namespace Sound

variable {s : DiskPath}

/-- There is one put under way. -/
theorem only (h : s.Sound) {i : Nat} {w : Writer} (hw : s.writers[i]? = some w) : s.writers = [w] ∧ i = 0 := by
  have hsingle := h.single
  cases hwriters : s.writers with
  | nil =>
    rw [hwriters] at hw
    cases hw
  | cons v vs =>
    rw [hwriters] at hw hsingle
    have hvs : vs = [] := List.eq_nil_of_length_eq_zero (by rw [List.length_cons] at hsingle; omega)
    subst hvs
    cases i with
    | zero => exact ⟨by rw [Option.some.inj hw], rfl⟩
    | succ i => cases hw

/-- A file that nobody reads and that has no name becomes the temporary file. -/
theorem opened (h : s.Sound) (halone : s.writers = []) (p : DiskPut) {inode next : Nat} (hnext : s.next ≤ next)
    (hlt : inode < next) (hfile : s.file ≠ some inode) (hreads : ∀ r ∈ s.reads, r.inode ≠ inode) :
    (s.opened p inode next).Sound := by
  have hmono : ∀ {j : Nat}, j ≠ inode → s.Whole j → (s.opened p inode next).Whole j := fun hj hwhole =>
    hwhole.mono (fun q hq => List.mem_append_left _ hq) (Function.update_of_ne hj _ _)
  constructor
  · show (s.writers ++ [_]).length ≤ 1
    rw [halone]
    exact Nat.le_refl 1
  · intro w hw
    have hw : w ∈ s.writers ++ [⟨p, inode, 0⟩] := hw
    rw [halone, List.nil_append, List.mem_singleton] at hw
    subst hw
    exact ⟨rfl, Nat.zero_le _, Function.update_self _ _ _, List.mem_append_right _ List.mem_cons_self⟩
  · intro j hj
    rw [← Option.some.inj hj]
    exact ⟨hlt, hfile, hreads⟩
  · intro j hj
    obtain ⟨hj_lt, hwhole⟩ := h.file j hj
    refine ⟨Nat.lt_of_lt_of_le hj_lt hnext, hmono ?_ hwhole⟩
    rintro rfl
    exact hfile hj
  · intro r hr
    obtain ⟨hr_lt, hwhole, hsofar⟩ := h.reads r hr
    refine ⟨Nat.lt_of_lt_of_le hr_lt hnext, hmono (hreads r hr) hwhole, ?_⟩
    show r.bytes <+: Function.update s.contents inode [] r.inode
    rwa [Function.update_of_ne (hreads r hr)]
  · intro bytes hbytes
    obtain ⟨q, hq, heq⟩ := h.observed bytes hbytes
    exact ⟨q, List.mem_append_left _ hq, heq⟩

theorem create (h : s.Sound) (halone : s.writers = []) (p : DiskPut) : (s.create p).Sound := by
  unfold DiskPath.create
  split
  · rename_i inode htmp
    obtain ⟨hlt, hfile, hreads⟩ := h.tmp inode htmp
    exact h.opened halone p (Nat.le_refl _) hlt hfile hreads
  · refine h.opened halone p (Nat.le_succ _) (Nat.lt_succ_self _) ?_ ?_
    · exact fun hfile => Nat.lt_irrefl _ (h.file _ hfile).1
    · exact fun r hr heq => Nat.lt_irrefl _ (heq ▸ (h.reads r hr).1)

theorem writeChunk (h : s.Sound) {i n : Nat} {w : Writer} (hw : s.writers[i]? = some w) :
    (s.writeChunk i n w).Sound := by
  obtain ⟨honly, rfl⟩ := h.only hw
  obtain ⟨htmp, hle, hcontent, hput⟩ := h.writer w (by rw [honly]; exact List.mem_cons_self)
  obtain ⟨-, hfile, hreads⟩ := h.tmp w.inode htmp
  have hmono : ∀ {j : Nat}, j ≠ w.inode → s.Whole j → (s.writeChunk 0 n w).Whole j := fun hj hwhole =>
    hwhole.mono (fun _ hq => hq) (Function.update_of_ne hj _ _)
  constructor
  · show (s.writers.set 0 _).length ≤ 1
    rw [List.length_set]
    exact h.single
  · intro v hv
    have hv : v ∈ s.writers.set 0 _ := hv
    rw [honly, List.set_cons_zero, List.mem_singleton] at hv
    subst hv
    refine ⟨htmp, ?_, ?_, hput⟩
    · show w.written + ((w.put.encoding.drop w.written).take n).length ≤ w.put.encoding.length
      rw [List.length_take, List.length_drop]
      omega
    · show Function.update s.contents w.inode _ w.inode = _
      rw [Function.update_self, hcontent]
      exact writeAt_take hle n
  · exact h.tmp
  · intro j hj
    obtain ⟨hlt, hwhole⟩ := h.file j hj
    refine ⟨hlt, hmono ?_ hwhole⟩
    rintro rfl
    exact hfile hj
  · intro r hr
    obtain ⟨hlt, hwhole, hsofar⟩ := h.reads r hr
    refine ⟨hlt, hmono (hreads r hr) hwhole, ?_⟩
    show r.bytes <+: Function.update s.contents w.inode _ r.inode
    rwa [Function.update_of_ne (hreads r hr)]
  · exact h.observed

/-- A put that wrote it all gives the file its name. -/
theorem renamed (h : s.Sound) {i : Nat} {w : Writer} (hw : s.writers[i]? = some w)
    (hdone : w.written = w.put.encoding.length) : (s.renamed i).Sound := by
  obtain ⟨honly, rfl⟩ := h.only hw
  obtain ⟨htmp, -, hcontent, hput⟩ := h.writer w (by rw [honly]; exact List.mem_cons_self)
  rw [hdone, List.take_length] at hcontent
  have hnone : s.writers.eraseIdx 0 = [] := by rw [honly]; rfl
  have hstate : s.renamed 0 = { s with tmp := none, file := some w.inode, writers := [] } := by
    unfold DiskPath.renamed
    rw [htmp, hnone]
  rw [hstate]
  constructor
  · exact Nat.zero_le 1
  · intro v hv
    cases hv
  · intro j hj
    cases hj
  · intro j hj
    rw [← Option.some.inj hj]
    exact ⟨(h.tmp _ htmp).1, w.put, hput, hcontent⟩
  · exact h.reads
  · exact h.observed

/-- A put that gives up leaves its temporary file. -/
theorem failed (h : s.Sound) (i : Nat) : Sound { s with writers := s.writers.eraseIdx i } :=
  ⟨Nat.le_trans (List.length_eraseIdx_le _ _) h.single, fun w hw => h.writer w (List.mem_of_mem_eraseIdx hw), h.tmp,
    h.file, h.reads, h.observed⟩

theorem evicted (h : s.Sound) : Sound { s with file := none } :=
  ⟨h.single, h.writer, fun j hj => ⟨(h.tmp j hj).1, fun hnone => (by cases hnone), (h.tmp j hj).2.2⟩,
    fun _ hj => (by cases hj), h.reads, h.observed⟩

theorem openRead (h : s.Sound) {inode : Nat} (hfile : s.file = some inode) :
    Sound { s with reads := s.reads ++ [⟨inode, []⟩] } := by
  refine ⟨h.single, h.writer, ?_, h.file, ?_, h.observed⟩
  · intro j hj
    obtain ⟨hlt, hname, hreads⟩ := h.tmp j hj
    refine ⟨hlt, hname, fun r hr => ?_⟩
    rcases List.mem_append.1 hr with hr | hr
    · exact hreads r hr
    · rw [List.mem_singleton.1 hr]
      rintro rfl
      exact hname hfile
  · intro r hr
    rcases List.mem_append.1 hr with hr | hr
    · exact h.reads r hr
    · rw [List.mem_singleton.1 hr]
      exact ⟨(h.file _ hfile).1, (h.file _ hfile).2, List.nil_prefix⟩

/-- A read gets the next bytes of its file. -/
theorem readChunk (h : s.Sound) {i n : Nat} {r : FileRead} (hr : s.reads[i]? = some r) :
    Sound { s with
      reads := s.reads.set i { r with bytes := r.bytes ++ ((s.contents r.inode).drop r.bytes.length).take n } } := by
  have hmem : r ∈ s.reads := List.mem_of_getElem? hr
  obtain ⟨hlt, hwhole, rest, hrest⟩ := h.reads r hmem
  refine ⟨h.single, h.writer, ?_, h.file, ?_, h.observed⟩
  · intro j hj
    obtain ⟨hj_lt, hname, hreads⟩ := h.tmp j hj
    refine ⟨hj_lt, hname, fun q hq => ?_⟩
    rcases List.mem_or_eq_of_mem_set hq with hq | rfl
    · exact hreads q hq
    · exact hreads r hmem
  · intro q hq
    rcases List.mem_or_eq_of_mem_set hq with hq | rfl
    · exact h.reads q hq
    · refine ⟨hlt, hwhole, ?_⟩
      show r.bytes ++ ((s.contents r.inode).drop r.bytes.length).take n <+: s.contents r.inode
      rw [← hrest, List.drop_left]
      exact (List.prefix_append_right_inj r.bytes).2 (List.take_prefix n rest)

/-- A read that came to the end has all of its file. -/
theorem finishRead (h : s.Sound) {i : Nat} {r : FileRead} (hr : s.reads[i]? = some r)
    (hend : (s.contents r.inode).length ≤ r.bytes.length) :
    Sound { s with reads := s.reads.eraseIdx i, observed := s.observed ++ [r.bytes] } := by
  have hsub : ∀ q ∈ s.reads.eraseIdx i, q ∈ s.reads := fun q hq => List.mem_of_mem_eraseIdx hq
  refine ⟨h.single, h.writer, ?_, h.file, fun q hq => h.reads q (hsub q hq), ?_⟩
  · intro j hj
    obtain ⟨hlt, hname, hreads⟩ := h.tmp j hj
    exact ⟨hlt, hname, fun q hq => hreads q (hsub q hq)⟩
  · intro bytes hbytes
    rcases List.mem_append.1 hbytes with hbytes | hbytes
    · exact h.observed bytes hbytes
    · obtain ⟨-, ⟨p, hp, hwhole⟩, hsofar⟩ := h.reads r (List.mem_of_getElem? hr)
      rw [List.mem_singleton.1 hbytes]
      exact ⟨p, hp, (hsofar.eq_of_length_le hend).trans hwhole⟩

/-- **Every step keeps the files sound**, as long as no put starts while another is under way. -/
theorem step (h : s.Sound) {e : DiskEvent} {t : DiskPath} (halone : s.Alone e) (hstep : s.Step e t) : t.Sound := by
  unfold Step at hstep
  cases e with
  | create p =>
    rw [← Option.some.inj hstep]
    exact h.create halone p
  | write i n =>
    obtain ⟨w, hw, hstep⟩ := Option.bind_eq_some_iff.1 hstep
    split at hstep
    · rw [← Option.some.inj hstep]
      exact h.writeChunk hw
    · cases hstep
  | rename i =>
    obtain ⟨w, hw, hstep⟩ := Option.bind_eq_some_iff.1 hstep
    split at hstep
    · rename_i hdone
      rw [← Option.some.inj hstep]
      exact h.renamed hw hdone
    · cases hstep
  | fail i =>
    rw [← Option.some.inj hstep]
    exact h.failed i
  | evict =>
    rw [← Option.some.inj hstep]
    exact h.evicted
  | openFile =>
    obtain ⟨inode, hfile, hstep⟩ := Option.bind_eq_some_iff.1 hstep
    rw [← Option.some.inj hstep]
    exact h.openRead hfile
  | read i n =>
    obtain ⟨r, hr, hstep⟩ := Option.bind_eq_some_iff.1 hstep
    rw [← Option.some.inj hstep]
    exact h.readChunk hr
  | endOfFile i =>
    obtain ⟨r, hr, hstep⟩ := Option.bind_eq_some_iff.1 hstep
    split at hstep
    · rename_i hend
      rw [← Option.some.inj hstep]
      exact h.finishRead hr hend
    · cases hstep

end Sound

/-! ## Runs -/

/-- **In a run where no put starts while another is under way the files stay sound.** -/
theorem sound_of_run {events : List DiskEvent} {t : DiskPath}
    (h : Runs.Run (Runs.Run.Where Step Alone) start events t) : t.Sound :=
  h.invariant_where (fun _ _ _ hs halone hstep => hs.step halone hstep) sound_start

/-- What a lookup makes of a whole encoding. -/
theorem get_of_encoding {hash : Str → UInt64} {d : DiskStore} {key : Str} {p : DiskPut} {file : File}
    (hfits : Codec.Fits p.key p.response) (hfile : d.dir.lookup (DiskStore.path hash key) = some file)
    (hbytes : file.bytes = p.encoding) :
    d.get hash key = .ok (if p.key = key then some (p.expiry.truncSecs, p.response) else none) := by
  unfold DiskStore.get
  rw [hfile]
  simp only [hbytes, DiskPut.encoding, Codec.decode_encode hfits]
  rfl

/-- **A put that runs alone does what `DiskStore.put` does in one step**: the file holds its encoding, and the temporary
file is gone. -/
theorem put_alone {s : DiskPath} (halone : s.writers = []) (p : DiskPut) : ∃ t inode,
    [DiskEvent.create p, .write 0 p.encoding.length, .rename 0].foldlM DiskPath.step s = some t ∧ t.tmp = none ∧
      t.file = some inode ∧ t.contents inode = p.encoding := by
  have hpos : 0 < p.encoding.length := by
    simp only [DiskPut.encoding, Codec.encode, List.length_append, Little.length_toLe]
    omega
  have hopened : ∃ inode next, s.create p = s.opened p inode next := by
    unfold create
    split
    · exact ⟨_, _, rfl⟩
    · exact ⟨_, _, rfl⟩
  obtain ⟨inode, next, hcreate⟩ := hopened
  have hchunk : (p.encoding.drop 0).take p.encoding.length = p.encoding := by rw [List.drop_zero, List.take_length]
  have hwritten : writeAt [] 0 p.encoding = p.encoding := by simp [writeAt]
  have hwrite : (s.opened p inode next).writeChunk 0 p.encoding.length ⟨p, inode, 0⟩ = { s with
      contents := Function.update (Function.update s.contents inode []) inode p.encoding
      next := next
      tmp := some inode
      writers := [⟨p, inode, p.encoding.length⟩]
      puts := s.puts ++ [p] } := by
    unfold writeChunk opened
    simp only [hchunk, Function.update_self, hwritten, halone, List.nil_append, List.set_cons_zero, Nat.zero_add]
  have hfirst : (s.opened p inode next).writers[0]? = some ⟨p, inode, 0⟩ := by
    show (s.writers ++ [_])[0]? = _
    rw [halone]
    rfl
  refine ⟨{ s with
    contents := Function.update (Function.update s.contents inode []) inode p.encoding
    next := next
    tmp := none
    file := some inode
    writers := []
    puts := s.puts ++ [p] }, inode, ?_, rfl, rfl, Function.update_self _ _ _⟩
  have hstep : (s.opened p inode next).step (.write 0 p.encoding.length) =
      some ((s.opened p inode next).writeChunk 0 p.encoding.length ⟨p, inode, 0⟩) := by
    show ((s.opened p inode next).writers[0]?).bind _ = _
    rw [hfirst, Option.bind_some, if_pos hpos]
  show ((s.create p).step _).bind _ = _
  rw [hcreate, hstep, hwrite, Option.bind_some]
  show Option.bind (if p.encoding.length = p.encoding.length then _ else none) _ = _
  rw [if_pos rfl]
  rfl

/-- **Without overlapping puts every content read is a whole encoding of an entry that was put**, and a lookup that
reads it finds that entry or none. -/
theorem reads_whole_encoding {events : List DiskEvent} {t : DiskPath}
    (h : Runs.Run (Runs.Run.Where Step Alone) start events t) :
    ∀ bytes ∈ t.observed, ∃ p ∈ t.puts, bytes = p.encoding ∧ (Codec.Fits p.key p.response →
      ∀ (hash : Str → UInt64) (d : DiskStore) (key : Str) (file : File),
        d.dir.lookup (DiskStore.path hash key) = some file → file.bytes = bytes →
          d.get hash key = .ok (if p.key = key then some (p.expiry.truncSecs, p.response) else none)) := by
  intro bytes hbytes
  obtain ⟨p, hp, rfl⟩ := (sound_of_run h).observed bytes hbytes
  exact ⟨p, hp, rfl, fun hfits hash d key file hfile hsame => get_of_encoding hfits hfile hsame⟩

/-! ## Two puts -/

/-- An entry of the key `k` with one byte of body. -/
def smallPut (expiry : SystemTime) (byte : UInt8) : DiskPut := ⟨['k'], expiry, ⟨200, [], [byte]⟩⟩

theorem oneSecond_lower : -endOfTime ≤ 1000000000 := by decide

theorem oneSecond_upper : (1000000000 : Int) < endOfTime := by decide

def oneSecond : SystemTime := ⟨1000000000, oneSecond_lower, oneSecond_upper⟩

def oneThenRead : List DiskEvent :=
  [.create (smallPut oneSecond 1), .write 0 10, .write 0 100, .rename 0, .openFile, .read 0 20, .read 0 100,
    .endOfFile 0]

/-- The step of a run where puts are alone, as a function. -/
def aloneStep (s : DiskPath) (e : DiskEvent) : Option DiskPath :=
  match e with
  | .create p => if s.writers.isEmpty then some (s.create p) else none
  | e => s.step e

theorem where_of_aloneStep {s t : DiskPath} {e : DiskEvent} (h : s.aloneStep e = some t) :
    Runs.Run.Where Step Alone s e t := by
  cases e with
  | create p =>
    unfold aloneStep at h
    simp only at h
    split at h
    · rename_i hempty
      exact ⟨h, List.isEmpty_iff.1 hempty⟩
    · cases h
  | _ => exact ⟨h, trivial⟩

theorem one_put_read : ∃ t, (oneThenRead.foldlM aloneStep start = some t) ∧
    ∃ p ∈ t.puts, t.observed = [p.encoding] := by
  obtain ⟨t, ht⟩ := Option.isSome_iff_exists.1 (show (oneThenRead.foldlM aloneStep start).isSome = true by decide)
  have hread : (oneThenRead.foldlM aloneStep start).map (·.observed) = some [(smallPut oneSecond 1).encoding] := by
    decide
  rw [ht, Option.map_some] at hread
  have hmem : (smallPut oneSecond 1).encoding ∈ t.observed := by
    rw [Option.some.inj hread]
    exact List.mem_cons_self
  have hrun : Runs.Run (Runs.Run.Where Step Alone) start oneThenRead t :=
    (Runs.run_of_foldlM ht).mono (fun _ _ _ h => where_of_aloneStep h)
  obtain ⟨p, hp, hbytes, -⟩ := reads_whole_encoding hrun _ hmem
  exact ⟨t, ht, p, hp, by rw [Option.some.inj hread, hbytes]⟩

/-- The second put truncates the first one's file and writes on under its new name. -/
def overlapping : List DiskEvent :=
  [.create (smallPut SystemTime.epoch 1), .create (smallPut oneSecond 2), .write 0 100, .rename 0, .write 0 27,
    .openFile, .read 0 100, .endOfFile 0]

/-- **Two puts at once make a file of both**: a read finds the first one's body under the second one's expiry. -/
theorem overlapping_puts_mix : ∃ t, Runs.Run Step start overlapping t ∧ ∃ bytes ∈ t.observed,
    (∀ p ∈ t.puts, bytes ≠ p.encoding) ∧ ∃ expiry response,
      Codec.decode bytes = .ok (some (['k'], expiry, response)) ∧ ∀ p ∈ t.puts, (p.expiry.truncSecs, p.response) ≠ (expiry, response) := by
  obtain ⟨t, ht⟩ := Option.isSome_iff_exists.1 (show (overlapping.foldlM step start).isSome = true by decide)
  have hread : (overlapping.foldlM step start).map (fun t => (t.puts, t.observed)) =
      some ([smallPut SystemTime.epoch 1, smallPut oneSecond 2], [(smallPut oneSecond 1).encoding]) := by decide
  rw [ht, Option.map_some] at hread
  obtain ⟨hputs, hobserved⟩ := Prod.mk.inj (Option.some.inj hread)
  refine ⟨t, Runs.run_of_foldlM ht, (smallPut oneSecond 1).encoding, by rw [hobserved]; exact List.mem_cons_self, ?_,
    oneSecond, ⟨200, [], [1]⟩, by decide, ?_⟩
  · rw [hputs]
    decide
  · rw [hputs]
    decide

end DiskPath
end Zaphyl
