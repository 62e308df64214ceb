import Mathlib.Data.Finset.Card
import Zaphyl.CacheStore
/-!
# DiskCapacity — what a put leaves in the cache directory

A put first removes the least recently written entry file of a full directory, and only then looks at the file it
writes.  It removes one file at most, so a directory that holds too many keeps too many (`counts_le_iff`), and it
removes another key's file also when it writes a file that is there (`put_unchanged_iff`).
-/
namespace Zaphyl

/-- How many entry files a directory holds; temporary files do not count. -/
def entryCount (dir : Dir) : Nat := (dir.entries.filter (fun f => f.1.extension.isNone)).length

/-- The entry file written first, which an eviction removes. -/
def leastRecent (env : Env) (dir : Dir) : Option FileName :=
  (Iteration.headByKey (fun f => f.2.modified.nanos)
    ((env.dirOrder.arrange dir.entries).filter (fun f => f.1.extension.isNone))).map Sigma.fst

/-- One put, with what the run-time leaves open in it. -/
structure DiskWrite where
  env : Env
  key : Str
  expiry : SystemTime
  response : CachedResponse

namespace DiskStore

def write (hash : Str → UInt64) (d : DiskStore) (w : DiskWrite) : DiskStore :=
  d.put hash w.env w.key w.expiry w.response

/-- The store after each put of a sequence. -/
def afterEach (hash : Str → UInt64) (d : DiskStore) : List DiskWrite → List DiskStore
  | [] => []
  | w :: ws => d.write hash w :: afterEach hash (d.write hash w) ws

/-! ## The names of the entry files -/

def entryNames (dir : Dir) : Finset FileName := dir.keys.toFinset.filter (fun name => name.extension.isNone)

theorem maxEntries_put {hash : Str → UInt64} {env : Env} {d : DiskStore} {key : Str} {expiry : SystemTime}
    {response : CachedResponse} : (d.put hash env key expiry response).maxEntries = d.maxEntries := by
  unfold put evict
  simp only
  split
  · split
    · rfl
    · rfl
  · rfl

theorem mem_entryNames {dir : Dir} {name : FileName} :
    name ∈ entryNames dir ↔ name ∈ dir ∧ name.extension.isNone = true := by
  unfold entryNames
  rw [Finset.mem_filter, List.mem_toFinset, AList.mem_keys]

theorem entryCount_eq_card (dir : Dir) : entryCount dir = (entryNames dir).card := by
  have hnames : (dir.entries.filter (fun f => f.1.extension.isNone)).map Sigma.fst =
      dir.keys.filter (fun name => name.extension.isNone) := by
    unfold AList.keys List.keys
    rw [List.filter_map]
    rfl
  unfold entryCount entryNames
  rw [← List.length_map (f := Sigma.fst), hnames, ← List.toFinset_filter, List.toFinset_card_of_nodup]
  exact (AList.keys_nodup dir).filter _

theorem entryNames_erase (dir : Dir) (name : FileName) : entryNames (dir.erase name) = (entryNames dir).erase name := by
  ext n
  rw [mem_entryNames, Finset.mem_erase, mem_entryNames, AList.mem_erase, and_assoc]

variable {hash : Str → UInt64} {env : Env} {d : DiskStore} {key : Str} {expiry : SystemTime}
  {response : CachedResponse}

/-- **A put adds its key's file to what the eviction leaves.** -/
theorem entryNames_put : entryNames (d.put hash env key expiry response).dir =
    insert (path hash key) (entryNames (d.evict env).dir) := by
  ext n
  rw [Finset.mem_insert, mem_entryNames, mem_entryNames, dir_put, AList.mem_insert, AList.mem_erase, AList.mem_insert]
  have hplain : (path hash key).extension.isNone = true := rfl
  have htmp : (tmpPath hash key).extension.isNone = false := rfl
  constructor
  · rintro ⟨rfl | ⟨hne, rfl | hmem⟩, hn⟩
    · exact Or.inl rfl
    · exact absurd rfl hne
    · exact Or.inr ⟨hmem, hn⟩
  · rintro (rfl | ⟨hmem, hn⟩)
    · exact ⟨Or.inl rfl, hplain⟩
    · refine ⟨Or.inr ⟨fun h => ?_, Or.inr hmem⟩, hn⟩
      rw [h, htmp] at hn
      cases hn

/-- **An eviction removes nothing, or the least recent entry file of a full directory.** -/
theorem evict_cases (hpos : 0 < d.maxEntries ∨ 0 < entryCount d.dir) :
    (entryCount d.dir < d.maxEntries ∧ (d.evict env).dir = d.dir) ∨
      ∃ oldest ∈ entryNames d.dir, d.maxEntries ≤ entryCount d.dir ∧ leastRecent env d.dir = some oldest ∧
        (d.evict env).dir = d.dir.erase oldest := by
  have hperm := ((env.dirOrder.perm d.dir.entries).filter (fun f => f.1.extension.isNone))
  have hlen : ((env.dirOrder.arrange d.dir.entries).filter (fun f => f.1.extension.isNone)).length =
      entryCount d.dir := hperm.length_eq
  unfold evict leastRecent
  simp only [hlen]
  by_cases hfull : d.maxEntries ≤ entryCount d.dir
  · rw [if_pos hfull]
    right
    cases hhead : Iteration.headByKey (fun f => f.2.modified.nanos)
        ((env.dirOrder.arrange d.dir.entries).filter (fun f => f.1.extension.isNone)) with
    | none =>
      have hnil : ((env.dirOrder.arrange d.dir.entries).filter (fun f => f.1.extension.isNone)).length = 0 := by
        rw [← List.length_insertionSort (fun a b => a.2.modified.nanos ≤ b.2.modified.nanos)]
        exact List.length_eq_zero_iff.2 (List.head?_eq_none_iff.1 hhead)
      omega
    | some oldest =>
      have hmem := hperm.mem_iff.1 ((List.mem_insertionSort _).1 (List.mem_of_mem_head? hhead))
      obtain ⟨hentry, hplain⟩ := List.mem_filter.1 hmem
      exact ⟨oldest.1, mem_entryNames.2 ⟨List.mem_map_of_mem hentry, hplain⟩, hfull, rfl, rfl⟩
  · rw [if_neg hfull]
    exact Or.inl ⟨Nat.lt_of_not_le hfull, rfl⟩

theorem path_mem_entryNames {dir : Dir} : path hash key ∈ entryNames dir ↔ path hash key ∈ dir := by
  rw [mem_entryNames]
  exact and_iff_left rfl

/-! ## The count -/

/-- The put of a key leaves no more files than the capacity: there were no more, or there was one more and the put
writes over one of those that the eviction leaves. -/
def Fits (hash : Str → UInt64) (capacity : Nat) (dir : Dir) (w : DiskWrite) : Prop :=
  entryCount dir ≤ capacity ∨
    (entryCount dir = capacity + 1 ∧ path hash w.key ∈ dir ∧ leastRecent w.env dir ≠ some (path hash w.key))

theorem write_count_le_iff {w : DiskWrite} (hpos : 0 < d.maxEntries) :
    entryCount (d.write hash w).dir ≤ d.maxEntries ↔ Fits hash d.maxEntries d.dir w := by
  unfold write Fits
  rw [entryCount_eq_card (d.put hash w.env w.key w.expiry w.response).dir, entryNames_put]
  rcases @evict_cases w.env d (Or.inl hpos) with ⟨hroom, hevict⟩ | ⟨oldest, hold, hfull, hleast, hevict⟩
  · rw [hevict]
    have hcard := Finset.card_insert_le (path hash w.key) (entryNames d.dir)
    rw [← entryCount_eq_card] at hcard
    exact iff_of_true (by omega) (Or.inl (by omega))
  · rw [hevict, entryNames_erase, hleast]
    have herase : ((entryNames d.dir).erase oldest).card + 1 = entryCount d.dir := by
      rw [Finset.card_erase_add_one hold, entryCount_eq_card]
    have hover : path hash w.key ∈ (entryNames d.dir).erase oldest ↔
        path hash w.key ∈ d.dir ∧ some oldest ≠ some (path hash w.key) := by
      rw [Finset.mem_erase, path_mem_entryNames, ne_eq, ne_eq, Option.some.injEq, and_comm, eq_comm]
    rw [← hover]
    by_cases hmem : path hash w.key ∈ (entryNames d.dir).erase oldest
    · rw [Finset.insert_eq_of_mem hmem, and_iff_left hmem]
      omega
    · rw [Finset.card_insert_of_notMem hmem, herase, or_iff_left (fun h => hmem h.2)]

theorem afterEach_le_of_le {m : Nat} (hpos : 0 < m) (ws : List DiskWrite) (hd : d.maxEntries = m)
    (h : entryCount d.dir ≤ m) : ∀ d' ∈ d.afterEach hash ws, entryCount d'.dir ≤ m := by
  induction ws generalizing d with
  | nil => intro d' hd'; cases hd'
  | cons w ws ih =>
    have hmax : (d.write hash w).maxEntries = m := by rw [← hd]; exact maxEntries_put
    have hnext : entryCount (d.write hash w).dir ≤ m := by
      subst hd
      exact (write_count_le_iff hpos).2 (Or.inl h)
    intro d' hd'
    rcases List.mem_cons.1 hd' with rfl | hd'
    · exact hnext
    · exact ih hmax hnext d' hd'

theorem stamp_lower (nano : UInt8) : -endOfTime ≤ (nano.toNat : Int) := by
  unfold endOfTime nanosPerSec
  omega

theorem stamp_upper (nano : UInt8) : (nano.toNat : Int) < endOfTime := by
  have := nano.toNat_lt
  unfold endOfTime nanosPerSec
  omega

/-- A hash under which keys of one length share a file. -/
def byLength (key : Str) : UInt64 := UInt64.ofNat key.length

/-- A put of an empty response, its file stamped with a nanosecond of the epoch's first second. -/
def writeOf (key : String) (nano : UInt8) : DiskWrite :=
  ⟨{ Env.kept with stamp := ⟨nano.toNat, stamp_lower nano, stamp_upper nano⟩ }, key.toList, SystemTime.epoch, ⟨200, [], []⟩⟩

/-- The directory of a store of some capacity after three keys. -/
def threeKeys (capacity : Nat) : Dir :=
  ([writeOf "a" 1, writeOf "bb" 2, writeOf "ccc" 3].foldl (write byLength) (DiskStore.new ∅ capacity)).dir

/-- **A sequence of puts keeps to the capacity exactly when its first put does**: when the directory holds no more
entry files than the capacity at the start, or one more and the first put writes over one that is not the least recently
written. -/
theorem counts_le_iff (hash : Str → UInt64) (dir : Dir) {m : Nat} (hm : 1 ≤ m) (ws : List DiskWrite) :
    (∀ d' ∈ (DiskStore.new dir m).afterEach hash ws, entryCount d'.dir ≤ m) ↔
      ∀ w ∈ ws.head?, Fits hash m dir w := by
  have hmax : (DiskStore.new dir m).maxEntries = m := Nat.max_eq_left hm
  cases ws with
  | nil => exact iff_of_true (fun d' hd' => by cases hd') (fun w hw => by cases hw)
  | cons w ws =>
    have hfirst : entryCount ((DiskStore.new dir m).write hash w).dir ≤ m ↔ Fits hash m dir w := by
      have h := @write_count_le_iff hash (DiskStore.new dir m) w (by omega)
      rwa [hmax] at h
    constructor
    · rintro h w' hw'
      cases hw'
      exact hfirst.1 (h _ List.mem_cons_self)
    · intro h d' hd'
      have hfits := hfirst.2 (h w rfl)
      rcases List.mem_cons.1 hd' with rfl | hd'
      · exact hfits
      · exact afterEach_le_of_le hm ws (maxEntries_put.trans hmax) hfits d' hd'

theorem empty_directory_keeps_capacity :
    entryCount ∅ = 0 ∧
      ∀ d' ∈ (DiskStore.new ∅ 1).afterEach byLength [writeOf "a" 1, writeOf "bb" 2], entryCount d'.dir ≤ 1 :=
  ⟨rfl, (counts_le_iff byLength ∅ (by decide) _).2 (fun _ _ => Or.inl (by decide))⟩

/-- **A capacity of 1 over three files holds three files after the next put.** -/
theorem smaller_capacity_keeps_files :
    ¬ ∀ d' ∈ (DiskStore.new (threeKeys 3) 1).afterEach byLength [writeOf "dddd" 4], entryCount d'.dir ≤ 1 := by
  decide

/-! ## The other files -/

/-- **A put of a key whose file is there leaves every other entry file exactly when it evicts none**: the directory holds
fewer than the capacity, or the least recently written file is the key's own. -/
theorem put_unchanged_iff (hash : Str → UInt64) (env : Env) (d : DiskStore) (key : Str) (expiry : SystemTime)
    (response : CachedResponse) (hthere : path hash key ∈ d.dir) :
    (∀ name, name.extension = none → name ≠ path hash key →
        (d.put hash env key expiry response).dir.lookup name = d.dir.lookup name) ↔
      entryCount d.dir < d.maxEntries ∨ leastRecent env d.dir = some (path hash key) := by
  have hcount : 0 < entryCount d.dir := by
    rw [entryCount_eq_card]
    exact Finset.card_pos.2 ⟨_, path_mem_entryNames.2 hthere⟩
  -- the temporary file comes and goes, and the key's own file is set aside
  have hput : ∀ name, name.extension = none → name ≠ path hash key →
      (d.put hash env key expiry response).dir.lookup name = (d.evict env).dir.lookup name := by
    intro name hplain hne
    have htmp : name ≠ tmpPath hash key := fun h => by
      rw [h] at hplain
      cases hplain
    rw [dir_put, AList.lookup_insert_ne hne, AList.lookup_erase_ne htmp, AList.lookup_insert_ne htmp]
  rcases @evict_cases env d (Or.inr hcount) with ⟨hroom, hevict⟩ | ⟨oldest, hold, hfull, hleast, hevict⟩
  · refine iff_of_true (fun name hplain hne => ?_) (Or.inl hroom)
    rw [hput name hplain hne, hevict]
  · rw [hleast, Option.some.injEq, or_iff_right (Nat.not_lt.2 hfull)]
    constructor
    · intro h
      by_contra hne
      obtain ⟨hmem, hplain⟩ := mem_entryNames.1 hold
      have hsame := h oldest (Option.isNone_iff_eq_none.1 hplain) hne
      rw [hput oldest (Option.isNone_iff_eq_none.1 hplain) hne, hevict, AList.lookup_erase] at hsame
      rw [← AList.lookup_isSome, ← hsame] at hmem
      cases hmem
    · rintro rfl name hplain hne
      rw [hput name hplain hne, hevict, AList.lookup_erase_ne hne]

/-- With all three keys within the capacity, writing the second again leaves the others. -/
theorem rewrite_within_capacity :
    path byLength "bb".toList ∈ threeKeys 4 ∧ ∀ name, name.extension = none → name ≠ path byLength "bb".toList →
      (DiskStore.put byLength (writeOf "bb" 4).env ⟨threeKeys 4, 4⟩ "bb".toList SystemTime.epoch
        ⟨200, [], []⟩).dir.lookup name = (threeKeys 4).lookup name := by
  have hthere : path byLength "bb".toList ∈ threeKeys 4 := by decide
  exact ⟨hthere, (put_unchanged_iff byLength (writeOf "bb" 4).env ⟨threeKeys 4, 4⟩ "bb".toList SystemTime.epoch
    ⟨200, [], []⟩ hthere).2 (Or.inl (by decide))⟩

/-- **Writing a key's file again in a full directory evicts another key's file.** -/
theorem rewrite_evicts_other :
    path byLength "ccc".toList ∈ threeKeys 3 ∧ path byLength "a".toList ∈ threeKeys 3 ∧
      path byLength "a".toList ∉
        ((DiskStore.mk (threeKeys 3) 3).write byLength (writeOf "ccc" 4)).dir := by
  decide

end DiskStore
end Zaphyl
