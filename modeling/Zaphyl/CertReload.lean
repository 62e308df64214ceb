import Mathlib.Logic.Function.Basic
import Zaphyl.Runs
/-!
# CertReload — handshakes against renewals

A renewal writes the certificate file, then the key file; a handshake reads the certificate file's modification time,
takes the pair cached under that time, or reads the two files and caches what it read.  A handshake that starts
between renewals uses the last one's pair as long as no handshake reads a file that another renewal wrote than the one
whose time it recorded (`unmixed_handshakes_use_renewed_pair`).
-/
namespace Zaphyl

/-! ## The cache -/

structure ReloadCache (T : Type) where
  cached : Option (Nat × T)

namespace ReloadCache

variable {T : Type}

def hit (r : ReloadCache T) (mtime : Nat) : Option T :=
  match r.cached with
  | some (cachedMtime, value) => if cachedMtime = mtime then some value else none
  | none => none

/-- Return the current value, loading it when the watched file changed.  `mtime` is `none` when the file is missing. -/
def get (r : ReloadCache T) (mtime : Option Nat) (load : Option T) : Option T × ReloadCache T :=
  match mtime with
  | none => (none, r)
  | some mtime =>
    match r.hit mtime with
    | some value => (some value, r)
    | none =>
      match load with
      | none => (none, r)
      | some value => (some value, ⟨some (mtime, value)⟩)

end ReloadCache

/-! ## The server -/

/-- A file and the number of the renewal that wrote it.  Each write of the certificate file gives it a new modification
time, for which the number stands. -/
structure Renewed (α : Type) where
  content : α
  renewal : Nat

inductive HandshakePc (Cert Key : Type)
  | idle
  | stamped (mtime : Nat)
  | loading (mtime : Nat)
  | gotCert (mtime : Nat) (cert : Cert)
  | loaded (mtime : Nat) (cert : Cert) (key : Key)
  | finished (cert : Cert) (key : Key)

/-- A handshake, and the last renewal when it started between renewals. -/
structure Handshake (Cert Key : Type) where
  pc : HandshakePc Cert Key
  promised : Option Nat

structure TlsServer (Cert Key : Type) where
  certFile : Renewed Cert
  keyFile : Renewed Key
  cache : ReloadCache (Cert × Key)
  handshakes : Nat → Handshake Cert Key

inductive TlsEvent
  | writeCert
  | writeKey
  | stamp (i : Nat)
  | check (i : Nat)
  | readCert (i : Nat)
  | readKey (i : Nat)
  | store (i : Nat)
deriving DecidableEq

namespace TlsServer

variable {Cert Key : Type} (pairs : Nat → Cert × Key)

/-- A renewal has written the certificate and not yet the key. -/
def renewing (s : TlsServer Cert Key) : Bool := s.keyFile.renewal ≠ s.certFile.renewal

def start : TlsServer Cert Key := ⟨⟨(pairs 0).1, 0⟩, ⟨(pairs 0).2, 0⟩, ⟨none⟩, fun _ => ⟨.idle, none⟩⟩

def setPc (s : TlsServer Cert Key) (i : Nat) (pc : HandshakePc Cert Key) : TlsServer Cert Key :=
  { s with handshakes := Function.update s.handshakes i { s.handshakes i with pc := pc } }

/-- One step; `pairs n` is the pair that renewal number `n` obtained.  A step that is not the next one of its renewal or
handshake changes nothing. -/
def step (s : TlsServer Cert Key) : TlsEvent → TlsServer Cert Key
  | .writeCert =>
    if s.renewing then s
    else { s with certFile := ⟨(pairs (s.certFile.renewal + 1)).1, s.certFile.renewal + 1⟩ }
  | .writeKey =>
    if s.renewing then { s with keyFile := ⟨(pairs s.certFile.renewal).2, s.certFile.renewal⟩ } else s
  | .stamp i =>
    match (s.handshakes i).pc with
    | .idle =>
      let promised := if s.renewing then none else some s.certFile.renewal
      { s with handshakes := Function.update s.handshakes i ⟨.stamped s.certFile.renewal, promised⟩ }
    | _ => s
  | .check i =>
    match (s.handshakes i).pc with
    | .stamped mtime =>
      match s.cache.hit mtime with
      | some pair => s.setPc i (.finished pair.1 pair.2)
      | none => s.setPc i (.loading mtime)
    | _ => s
  | .readCert i =>
    match (s.handshakes i).pc with
    | .loading mtime => s.setPc i (.gotCert mtime s.certFile.content)
    | _ => s
  | .readKey i =>
    match (s.handshakes i).pc with
    | .gotCert mtime cert => s.setPc i (.loaded mtime cert s.keyFile.content)
    | _ => s
  | .store i =>
    match (s.handshakes i).pc with
    | .loaded mtime cert key => { s.setPc i (.finished cert key) with cache := ⟨some (mtime, (cert, key))⟩ }
    | _ => s

def Next (s : TlsServer Cert Key) (e : TlsEvent) (t : TlsServer Cert Key) : Prop := t = step pairs s e

/-- **A read is unmixed**: the file it reads was written by the renewal whose modification time its handshake has
recorded. -/
def Unmixed (s : TlsServer Cert Key) : TlsEvent → Prop
  | .readCert i => ∀ mtime, (s.handshakes i).pc = .loading mtime → s.certFile.renewal = mtime
  | .readKey i => ∀ mtime cert, (s.handshakes i).pc = .gotCert mtime cert → s.keyFile.renewal = mtime
  | .writeCert => True
  | .writeKey => True
  | .stamp _ => True
  | .check _ => True
  | .store _ => True

/-! ## What the server holds -/

/-- What a handshake holds belongs to the renewal whose time it recorded, and it keeps its promise. -/
def KeepsPromise (h : Handshake Cert Key) : Prop :=
  match h.pc with
  | .idle => h.promised = none
  | .stamped mtime => ∀ n, h.promised = some n → n = mtime
  | .loading mtime => ∀ n, h.promised = some n → n = mtime
  | .gotCert mtime cert => cert = (pairs mtime).1 ∧ ∀ n, h.promised = some n → n = mtime
  | .loaded mtime cert key => (cert, key) = pairs mtime ∧ ∀ n, h.promised = some n → n = mtime
  | .finished cert key => ∀ n, h.promised = some n → (cert, key) = pairs n

/-- **Files, cache and handshakes are of the renewals they are kept under.** -/
structure Coherent (s : TlsServer Cert Key) : Prop where
  cert : s.certFile.content = (pairs s.certFile.renewal).1
  key : s.keyFile.content = (pairs s.keyFile.renewal).2
  cached : ∀ mtime pair, s.cache.cached = some (mtime, pair) → pair = pairs mtime
  handshakes : ∀ i, KeepsPromise pairs (s.handshakes i)

variable {pairs}

theorem coherent_start : Coherent pairs (start pairs) :=
  ⟨rfl, rfl, fun _ _ h => by simp [start] at h, fun _ => rfl⟩

theorem Coherent.update {s : TlsServer Cert Key} (h : Coherent pairs s) {i : Nat} {hs : Handshake Cert Key}
    (hi : KeepsPromise pairs hs) :
    Coherent pairs { s with handshakes := Function.update s.handshakes i hs } := by
  refine ⟨h.cert, h.key, h.cached, fun j => ?_⟩
  show KeepsPromise pairs (Function.update s.handshakes i hs j)
  by_cases hj : j = i
  · subst hj
    rw [Function.update_self]
    exact hi
  · rw [Function.update_of_ne hj]
    exact h.handshakes j

theorem Coherent.hit {s : TlsServer Cert Key} (h : Coherent pairs s) {mtime : Nat} {pair : Cert × Key}
    (hhit : s.cache.hit mtime = some pair) : pair = pairs mtime := by
  unfold ReloadCache.hit at hhit
  split at hhit
  · rename_i cachedMtime value hcached
    split at hhit
    · rename_i hm
      rw [Option.some.injEq] at hhit
      rw [← hhit, ← hm]
      exact h.cached _ _ hcached
    · cases hhit
  · cases hhit

theorem Coherent.keepsPromise {s : TlsServer Cert Key} (h : Coherent pairs s) {i : Nat} {pc : HandshakePc Cert Key}
    (hpc : (s.handshakes i).pc = pc) : KeepsPromise pairs ⟨pc, (s.handshakes i).promised⟩ := by
  rw [← hpc]
  exact h.handshakes i

theorem coherent_stamp {s : TlsServer Cert Key} (h : Coherent pairs s) (i : Nat) :
    Coherent pairs (step pairs s (.stamp i)) := by
  simp only [step]
  split
  · refine h.update (fun n hn => ?_)
    simp only at hn
    split at hn
    · cases hn
    · exact (Option.some.inj hn).symm
  · exact h

theorem coherent_check {s : TlsServer Cert Key} (h : Coherent pairs s) (i : Nat) :
    Coherent pairs (step pairs s (.check i)) := by
  simp only [step]
  split
  · rename_i mtime hpc
    have hi : ∀ n, (s.handshakes i).promised = some n → n = mtime := h.keepsPromise hpc
    split
    · rename_i pair hhit
      refine h.update (fun n hn => ?_)
      rw [hi n hn]
      exact h.hit hhit
    · exact h.update hi
  · exact h

theorem coherent_readCert {s : TlsServer Cert Key} (h : Coherent pairs s) {i : Nat} (hu : Unmixed s (.readCert i)) :
    Coherent pairs (step pairs s (.readCert i)) := by
  simp only [step]
  split
  · rename_i mtime hpc
    have hm : s.certFile.renewal = mtime := hu mtime hpc
    refine h.update ⟨?_, h.keepsPromise hpc⟩
    rw [h.cert, hm]
  · exact h

theorem coherent_readKey {s : TlsServer Cert Key} (h : Coherent pairs s) {i : Nat} (hu : Unmixed s (.readKey i)) :
    Coherent pairs (step pairs s (.readKey i)) := by
  simp only [step]
  split
  · rename_i mtime cert hpc
    obtain ⟨hcert, hi⟩ := h.keepsPromise hpc
    have hm : s.keyFile.renewal = mtime := hu mtime cert hpc
    refine h.update ⟨?_, hi⟩
    rw [hcert, h.key, hm]
  · exact h

theorem coherent_store {s : TlsServer Cert Key} (h : Coherent pairs s) (i : Nat) :
    Coherent pairs (step pairs s (.store i)) := by
  simp only [step]
  split
  · rename_i mtime cert key hpc
    obtain ⟨hpair, hi⟩ := h.keepsPromise hpc
    have hdone : Coherent pairs (s.setPc i (.finished cert key)) := by
      refine h.update (fun n hn => ?_)
      rw [hi n hn]
      exact hpair
    refine ⟨hdone.cert, hdone.key, fun m pair hcached => ?_, hdone.handshakes⟩
    obtain ⟨rfl, rfl⟩ := Prod.mk.inj (Option.some.inj hcached)
    exact hpair
  · exact h

/-- **An unmixed step keeps everything with its renewal.** -/
theorem coherent_step {s : TlsServer Cert Key} {e : TlsEvent} (h : Coherent pairs s) (hu : Unmixed s e) :
    Coherent pairs (step pairs s e) := by
  cases e with
  | writeCert =>
    simp only [step]
    split
    · exact h
    · exact ⟨rfl, h.key, h.cached, h.handshakes⟩
  | writeKey =>
    simp only [step]
    split
    · exact ⟨h.cert, rfl, h.cached, h.handshakes⟩
    · exact h
  | stamp i => exact coherent_stamp h i
  | check i => exact coherent_check h i
  | readCert i => exact coherent_readCert h hu
  | readKey i => exact coherent_readKey h hu
  | store i => exact coherent_store h i

/-! ## One handshake alone -/

/-- **Without a renewal in between, a handshake is `ReloadCache::get`.** -/
theorem run_handshake_alone (s : TlsServer Cert Key) (i : Nat) (hidle : (s.handshakes i).pc = .idle) :
    let t := [TlsEvent.stamp i, .check i, .readCert i, .readKey i, .store i].foldl (step pairs) s
    let r := s.cache.get (some s.certFile.renewal) (some (s.certFile.content, s.keyFile.content))
    r.1 = (match (t.handshakes i).pc with
      | .finished cert key => some (cert, key)
      | _ => none) ∧ t.cache = r.2 := by
  simp only [List.foldl_cons, List.foldl_nil, step, hidle, Function.update_self, setPc]
  cases hhit : s.cache.hit s.certFile.renewal with
  | some pair => simp [ReloadCache.get, hhit]
  | none => simp [ReloadCache.get, hhit]

end TlsServer

/-- **Handshakes use the renewed pair as long as no read is mixed.**  In a run whose reads are all unmixed, a handshake
that started between renewals and finished uses the certificate and the key of the last renewal before its start. -/
theorem unmixed_handshakes_use_renewed_pair {Cert Key : Type} (pairs : Nat → Cert × Key) {events : List TlsEvent}
    {s : TlsServer Cert Key}
    (hrun : Runs.Run (Runs.Run.Where (TlsServer.Next pairs) TlsServer.Unmixed) (TlsServer.start pairs) events s)
    (i n : Nat) (cert : Cert) (key : Key) (hpromised : (s.handshakes i).promised = some n)
    (hfinished : (s.handshakes i).pc = .finished cert key) : (cert, key) = pairs n := by
  have hs : TlsServer.Coherent pairs s :=
    hrun.invariant_where (fun _ _ t hc hu ht => by rw [ht]; exact TlsServer.coherent_step hc hu)
      TlsServer.coherent_start
  exact hs.keepsPromise hfinished n hpromised

/-! ## A mixed read -/

def numbered (n : Nat) : Nat × Nat := (n, n)

def runTls (events : List TlsEvent) : TlsServer Nat Nat :=
  events.foldl (TlsServer.step numbered) (TlsServer.start numbered)

def quietEvents : List TlsEvent := [.writeCert, .writeKey, .stamp 0, .check 0, .readCert 0, .readKey 0, .store 0]

theorem quietEvents_unmixed : Runs.Run (Runs.Run.Where (TlsServer.Next numbered) TlsServer.Unmixed)
    (TlsServer.start numbered) quietEvents (runTls quietEvents) :=
  .cons ⟨rfl, trivial⟩ <| .cons ⟨rfl, trivial⟩ <| .cons ⟨rfl, trivial⟩ <| .cons ⟨rfl, trivial⟩ <|
    .cons ⟨rfl, fun _ h => by cases h; rfl⟩ <| .cons ⟨rfl, fun _ _ h => by cases h; rfl⟩ <|
    .cons ⟨rfl, trivial⟩ <| .nil _

theorem quietEvents_use_renewed_pair :
    ((runTls quietEvents).handshakes 0).pc = .finished 1 1 ∧ (1, 1) = numbered 1 :=
  ⟨rfl, unmixed_handshakes_use_renewed_pair numbered quietEvents_unmixed 0 1 1 1 rfl rfl⟩

/-- A handshake reads both files between the two writes of a renewal, and one starts after the renewal. -/
def mixedEvents : List TlsEvent :=
  [.writeCert, .stamp 0, .check 0, .readCert 0, .readKey 0, .store 0, .writeKey, .stamp 1, .check 1]

/-- **The new certificate is served with the old key, and stays cached.** -/
theorem mixedEvents_use_old_key :
    Runs.Run (TlsServer.Next numbered) (TlsServer.start numbered) mixedEvents (runTls mixedEvents) ∧
      ((runTls mixedEvents).handshakes 1).promised = some 1 ∧
      ((runTls mixedEvents).handshakes 1).pc = .finished 1 0 ∧ (1, 0) ≠ numbered 1 :=
  ⟨.cons rfl <| .cons rfl <| .cons rfl <| .cons rfl <| .cons rfl <| .cons rfl <| .cons rfl <| .cons rfl <| .cons rfl <|
    .nil _, rfl, rfl, by decide⟩

end Zaphyl
