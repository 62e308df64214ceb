import Zaphyl.Utf8
/-!
# Http — header maps and requests

Header names are lower-case tokens and header values are the bytes an HTTP parser lets through; both carry the check
that built them.  A header map keeps its lines in iteration order and its reading methods are those of the `http`
crate: `get` gives the first line of a name.
-/
namespace Zaphyl

def isNameChar (c : Char) : Bool := c.isLower || c.isDigit || c ∈ "!#$%&'*+-.^_`|~".toList

structure HeaderName where
  text : Str
  wf : text ≠ [] ∧ text.all isNameChar = true
deriving DecidableEq

namespace HeaderName

theorem text_inj {n k : HeaderName} : n.text = k.text ↔ n = k := by
  constructor
  · intro h
    obtain ⟨text, wf⟩ := n
    obtain ⟨text', wf'⟩ := k
    subst h
    rfl
  · exact congrArg text

/-- `s.parse::<HeaderName>()`: names are compared and kept in lower case. -/
def parse (s : Str) : Option HeaderName :=
  if h : Text.asciiLower s ≠ [] ∧ (Text.asciiLower s).all isNameChar = true then some ⟨Text.asciiLower s, h⟩ else none

def host : HeaderName := ⟨"host".toList, by decide⟩
def authorization : HeaderName := ⟨"authorization".toList, by decide⟩
def cacheControl : HeaderName := ⟨"cache-control".toList, by decide⟩
def vary : HeaderName := ⟨"vary".toList, by decide⟩
def setCookie : HeaderName := ⟨"set-cookie".toList, by decide⟩
def acceptEncoding : HeaderName := ⟨"accept-encoding".toList, by decide⟩
def ifNoneMatch : HeaderName := ⟨"if-none-match".toList, by decide⟩
def connection : HeaderName := ⟨"connection".toList, by decide⟩
def transferEncoding : HeaderName := ⟨"transfer-encoding".toList, by decide⟩
def upgrade : HeaderName := ⟨"upgrade".toList, by decide⟩
def contentLength : HeaderName := ⟨"content-length".toList, by decide⟩
def earlyData : HeaderName := ⟨"early-data".toList, by decide⟩
def xForwardedFor : HeaderName := ⟨"x-forwarded-for".toList, by decide⟩
def xForwardedProto : HeaderName := ⟨"x-forwarded-proto".toList, by decide⟩

end HeaderName

def isValueByte (b : UInt8) : Bool := (32 ≤ b && b ≠ 127) || b = 9

def isVisible (b : UInt8) : Bool := (32 ≤ b && b < 127) || b = 9

structure HeaderValue where
  bytes : Bytes
  wf : bytes.all isValueByte = true
deriving DecidableEq

namespace HeaderValue

/-- `HeaderValue::from_str`. -/
def ofStr (s : Str) : Option HeaderValue :=
  if h : (Utf8.encode s).all isValueByte = true then some ⟨Utf8.encode s, h⟩ else none

/-- `to_str().ok()`: the text of a value of visible ASCII. -/
def toStr (v : HeaderValue) : Option Str :=
  if v.bytes.all isVisible = true then some (v.bytes.map (fun b => Char.ofNat b.toNat)) else none

theorem toNat_of_mem_toStr {v : HeaderValue} {s : Str} (h : v.toStr = some s) {c : Char} (hc : c ∈ s) :
    32 ≤ c.toNat ∧ c.toNat < 127 ∨ c.toNat = 9 := by
  unfold toStr at h
  split at h
  · rename_i hall
    rw [Option.some.injEq] at h
    rw [← h, List.mem_map] at hc
    obtain ⟨b, hb, rfl⟩ := hc
    have hvis := List.all_eq_true.1 hall b hb
    have hlt : b.toNat < 256 := b.toNat_lt
    have hchar : (Char.ofNat b.toNat).toNat = b.toNat := by
      unfold Char.ofNat
      rw [dif_pos (Or.inl (by omega))]
      rfl
    simp only [isVisible, Bool.or_eq_true, Bool.and_eq_true, decide_eq_true_eq, UInt8.le_iff_toNat_le,
      UInt8.lt_iff_toNat_lt, ← UInt8.toNat_inj] at hvis
    rw [hchar]
    exact hvis
  · cases h

end HeaderValue

structure HeaderMap where
  lines : List (HeaderName × HeaderValue)
deriving DecidableEq

namespace HeaderMap

def get (m : HeaderMap) (n : HeaderName) : Option HeaderValue := (m.lines.find? (fun l => l.1 = n)).map Prod.snd

def getStr (m : HeaderMap) (n : HeaderName) : Option Str := (m.get n).bind HeaderValue.toStr

def containsKey (m : HeaderMap) (n : HeaderName) : Bool := m.lines.any (fun l => l.1 = n)

def remove (m : HeaderMap) (n : HeaderName) : HeaderMap := ⟨m.lines.filter (fun l => l.1 ≠ n)⟩

def insertLines (n : HeaderName) (v : HeaderValue) : List (HeaderName × HeaderValue) → List (HeaderName × HeaderValue)
  | [] => [(n, v)]
  | l :: ls => if l.1 = n then (n, v) :: ls.filter (fun l => l.1 ≠ n) else l :: insertLines n v ls

def insert (m : HeaderMap) (n : HeaderName) (v : HeaderValue) : HeaderMap := ⟨insertLines n v m.lines⟩

/-- A further line of a name stands behind those it has. -/
def appendLines (n : HeaderName) (v : HeaderValue) : List (HeaderName × HeaderValue) → List (HeaderName × HeaderValue)
  | [] => [(n, v)]
  | l :: ls =>
    if l.1 = n then l :: (ls.takeWhile (fun l => l.1 = n) ++ (n, v) :: ls.dropWhile (fun l => l.1 = n))
    else l :: appendLines n v ls

def append (m : HeaderMap) (n : HeaderName) (v : HeaderValue) : HeaderMap := ⟨appendLines n v m.lines⟩

def visiblePairs (m : HeaderMap) : List (Str × Str) :=
  m.lines.filterMap (fun l => l.2.toStr.map (fun s => (l.1.text, s)))

theorem mem_append (m : HeaderMap) (n : HeaderName) (v : HeaderValue) (l : HeaderName × HeaderValue) :
    l ∈ (m.append n v).lines ↔ l = (n, v) ∨ l ∈ m.lines := by
  have hmem : ∀ ls : List (HeaderName × HeaderValue), l ∈ appendLines n v ls ↔ l = (n, v) ∨ l ∈ ls := by
    intro ls
    induction ls with
    | nil => simp [appendLines]
    | cons k ls ih =>
      have hsplit : l ∈ ls ↔ l ∈ ls.takeWhile (fun k => k.1 = n) ∨ l ∈ ls.dropWhile (fun k => k.1 = n) := by
        rw [← List.mem_append, List.takeWhile_append_dropWhile]
      by_cases hk : k.1 = n
      · simp only [appendLines, if_pos hk, List.mem_cons, List.mem_append, hsplit]
        tauto
      · simp only [appendLines, if_neg hk, List.mem_cons, ih]
        tauto
  exact hmem m.lines

theorem containsKey_iff_get (m : HeaderMap) (n : HeaderName) : m.containsKey n = true ↔ (m.get n).isSome = true := by
  unfold containsKey get
  rw [Option.isSome_map, List.find?_isSome, List.any_eq_true]

theorem getStr_congr {m m' : HeaderMap} {n : HeaderName} (h : m.get n = m'.get n) : m.getStr n = m'.getStr n := by
  unfold getStr
  rw [h]

end HeaderMap

/-- What `http::Uri` keeps of a request target: the authority it may name, and the path and query it may name. -/
structure Uri where
  authority : Option Str
  pathAndQuery : Option Str
deriving DecidableEq

namespace Uri

def path (u : Uri) : Str :=
  match u.pathAndQuery with
  | none => []
  | some pq => let p := Text.before '?' pq; if p = [] then ['/'] else p

def query (u : Uri) : Option Str :=
  u.pathAndQuery.bind (fun pq => if '?' ∈ pq then some (pq.drop ((Text.before '?' pq).length + 1)) else none)

def pathAndQueryOr (u : Uri) : Str := u.pathAndQuery.getD ['/']

end Uri

structure Request where
  method : Str
  uri : Uri
  headers : HeaderMap
deriving DecidableEq

structure ResponseHead where
  status : UInt16
  headers : HeaderMap
deriving DecidableEq

end Zaphyl
