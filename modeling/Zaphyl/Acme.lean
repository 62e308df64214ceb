import Mathlib.Logic.Function.Basic
import Zaphyl.Config
import Zaphyl.Time
import Zaphyl.Utf8
/-!
# Acme — certificates obtained by orders

An order asks the CA for a certificate for the configured domains and registers its HTTP-01 challenges on the way;
`obtain` runs one and writes the certificate, then the key.  A start obtains when one of the files is missing, the renewal
loop when the certificate is due (`needs_renewal`).  What the CA, the file system and the X.509 parser answer is given.
-/
namespace Zaphyl

/-! ## Challenges -/

/-- Pending HTTP-01 challenges: each token's key authorization. -/
structure ChallengeStore where
  tokens : Str → Option Str

namespace ChallengeStore

def new : ChallengeStore := ⟨fun _ => none⟩

def insert (s : ChallengeStore) (token keyAuthorization : Str) : ChallengeStore :=
  ⟨Function.update s.tokens token (some keyAuthorization)⟩

def remove (s : ChallengeStore) (token : Str) : ChallengeStore := ⟨Function.update s.tokens token none⟩

def responseFor (s : ChallengeStore) (path : Str) : Option Str :=
  match path.dropPrefix? "/.well-known/acme-challenge/".toList with
  | some token => if token = [] || token.contains '/' then none else s.tokens token
  | none => none

end ChallengeStore

/-! ## Orders -/

inductive Identifier
  | dns (domain : Str)
deriving DecidableEq

inductive AuthorizationStatus
  | pending | valid | invalid | revoked | expired | deactivated
deriving DecidableEq

def AuthorizationStatus.debug : AuthorizationStatus → Str
  | .pending => "Pending".toList
  | .valid => "Valid".toList
  | .invalid => "Invalid".toList
  | .revoked => "Revoked".toList
  | .expired => "Expired".toList
  | .deactivated => "Deactivated".toList

inductive OrderStatus
  | pending | ready | processing | valid | invalid
deriving DecidableEq

def OrderStatus.debug : OrderStatus → Str
  | .pending => "Pending".toList
  | .ready => "Ready".toList
  | .processing => "Processing".toList
  | .valid => "Valid".toList
  | .invalid => "Invalid".toList

/-- An HTTP-01 challenge, and the answer to `set_ready`. -/
structure Challenge where
  token : Str
  keyAuthorization : Str
  setReady : Except Str Unit

structure Authorization where
  status : AuthorizationStatus
  http01 : Option Challenge

/-- What a client and its CA answer in the course of an order. -/
structure CaReplies where
  client : Except Str Unit
  account : Str → Except Str Unit
  newOrder : List Identifier → Except Str (List (Except Str Authorization))
  pollReady : Except Str OrderStatus
  finalize : Except Str Str
  pollCertificate : Except Str Str

/-- A completed order: what it asked for, and what was issued. -/
structure AcmeOrder where
  identifiers : List Identifier
  certPem : Str
  keyPem : Str
deriving DecidableEq

def AcmeConfig.identifiers (acme : AcmeConfig) : List Identifier := acme.domains.map Identifier.dns

/-- The authorizations of a new order. -/
def placeOrder (acme : AcmeConfig) (ca : CaReplies) : Except Str (List (Except Str Authorization)) := do
  ca.client
  ca.account ("mailto:".toList ++ acme.email)
  ca.newOrder acme.identifiers

/-- The loop over the authorizations, which registers the challenges. -/
def authorize : ChallengeStore → List (Except Str Authorization) → ChallengeStore × Except Str Unit
  | store, [] => (store, .ok ())
  | store, .error e :: _ => (store, .error e)
  | store, .ok authz :: rest =>
    match authz.status with
    | .valid => authorize store rest
    | .pending =>
      match authz.http01 with
      | none => (store, .error "no http-01 challenge offered".toList)
      | some challenge =>
        let store := store.insert challenge.token challenge.keyAuthorization
        match challenge.setReady with
        | .error e => (store, .error e)
        | .ok () => authorize store rest
    | other => (store, .error ("unexpected authorization status: ".toList ++ other.debug))

/-- Poll the authorized order until it is ready, finalize it, and fetch what was issued. -/
def completeOrder (acme : AcmeConfig) (ca : CaReplies) : Except Str AcmeOrder := do
  let status ← ca.pollReady
  if status ≠ .ready then
    throw ("order did not become ready: ".toList ++ status.debug)
  let keyPem ← ca.finalize
  let certPem ← ca.pollCertificate
  return ⟨acme.identifiers, certPem, keyPem⟩

def runOrder (acme : AcmeConfig) (ca : CaReplies) (store : ChallengeStore) : ChallengeStore × Except Str AcmeOrder :=
  match placeOrder acme ca with
  | .error e => (store, .error e)
  | .ok authorizations =>
    match authorize store authorizations with
    | (store, .error e) => (store, .error e)
    | (store, .ok ()) => (store, completeOrder acme ca)

/-! ## The cache directory -/

/-- A file of the cache directory: its bytes, and the order that last wrote it, with the configuration it was for. -/
structure CacheFile where
  content : Bytes
  order : AcmeOrder
  acme : AcmeConfig
deriving DecidableEq

/-- How a write ends.  One that fails leaves the file as it was, or emptied with the first bytes written. -/
inductive WriteResult
  | done
  | failed (e : Str) (written : Option Nat)

namespace WriteResult

def result : WriteResult → Except Str Unit
  | .done => .ok ()
  | .failed e _ => .error e

def file (w : WriteResult) (content : Bytes) (order : AcmeOrder) (acme : AcmeConfig) (old : Option CacheFile) :
    Option CacheFile :=
  match w with
  | .done => some ⟨content, order, acme⟩
  | .failed _ none => old
  | .failed _ (some n) => some ⟨content.take n, order, acme⟩

end WriteResult

/-- The challenges that are served, and the cache directory. -/
structure AcmeState where
  store : ChallengeStore
  cert : Option CacheFile
  key : Option CacheFile

structure ObtainEnv where
  runtime : Except Str Unit
  ca : CaReplies
  writeCert : WriteResult
  writeKey : WriteResult

/-- Run an order and write the issued certificate and key. -/
def obtain (acme : AcmeConfig) (env : ObtainEnv) (s : AcmeState) : AcmeState × Except Str Unit :=
  match env.runtime with
  | .error e => (s, .error e)
  | .ok () =>
    match runOrder acme env.ca s.store with
    | (store, .error e) => ({ s with store := store }, .error e)
    | (store, .ok order) =>
      let cert := env.writeCert.file (Utf8.encode order.certPem) order acme s.cert
      match env.writeCert.result with
      | .error e => ({ s with store := store, cert := cert }, .error e)
      | .ok () =>
        let key := env.writeKey.file (Utf8.encode order.keyPem) order acme s.key
        (⟨store, cert, key⟩, env.writeKey.result)

/-! ## Renewal -/

/-- The nearest 64-bit signed number. -/
def saturateI64 (n : Int) : Int := max (-9223372036854775808) (min n 9223372036854775807)

def secondsPerDay : Int := 86400

/-- The seconds before its expiry from which on a certificate is due. -/
def AcmeConfig.window (acme : AcmeConfig) : Int :=
  saturateI64 (min (acme.renewBeforeDays : Int) 9223372036854775807 * secondsPerDay)

section

variable (certNotAfterUnix : Str → Option Int)

/-- The certificate expires within the window, or cannot be parsed; the parameter parses a certificate's `notAfter`. -/
def needsRenewal (certPem : Str) (nowUnix renewBeforeSecs : Int) : Bool :=
  match certNotAfterUnix certPem with
  | some notAfter => saturateI64 (notAfter - nowUnix) < renewBeforeSecs
  | none => true

/-- `read_to_string`. -/
def readToString (content : Bytes) : Option Str :=
  if Utf8.encode (Utf8.lossy content) = content then some (Utf8.lossy content) else none

/-- What the renewal loop asks of the certificate file. -/
def AcmeState.due (s : AcmeState) (nowUnix window : Int) : Bool :=
  match s.cert.bind (fun f => readToString f.content) with
  | some pem => needsRenewal certNotAfterUnix pem nowUnix window
  | none => true

structure AcmeRunner where
  config : AcmeConfig
deriving DecidableEq

/-- Obtain the initial certificate, or load it from the cache; `dir` is the outcome of creating the directory. -/
def AcmeRunner.start (config : AcmeConfig) (dir : Except Str Unit) (env : ObtainEnv) (s : AcmeState) :
    AcmeState × Except Str AcmeRunner :=
  match dir with
  | .error e => (s, .error e)
  | .ok () =>
    if s.cert.isSome && s.key.isSome then (s, .ok ⟨config⟩)
    else
      match obtain config env s with
      | (s, .error e) => (s, .error e)
      | (s, .ok ()) => (s, .ok ⟨config⟩)

/-- One round of the renewal loop. -/
def AcmeRunner.renew (r : AcmeRunner) (now : SystemTime) (env : ObtainEnv) (s : AcmeState) : AcmeState :=
  if s.due certNotAfterUnix now.unixSecs r.config.window then (obtain r.config env s).1 else s

end

/-! ## What an order leaves -/

theorem placeOrder_eq_ok_iff {acme : AcmeConfig} {ca : CaReplies} {authorizations : List (Except Str Authorization)} :
    placeOrder acme ca = .ok authorizations ↔
      ca.client = .ok () ∧ ca.account ("mailto:".toList ++ acme.email) = .ok () ∧
        ca.newOrder acme.identifiers = .ok authorizations := by
  unfold placeOrder
  cases ca.client with
  | error e => exact iff_of_false (fun h => by cases h) (fun h => by cases h.1)
  | ok _ =>
    cases ca.account ("mailto:".toList ++ acme.email) with
    | error e => exact iff_of_false (fun h => by cases h) (fun h => by cases h.2.1)
    | ok _ => exact ⟨fun h => ⟨rfl, rfl, h⟩, fun h => h.2.2⟩

/-- **An order is completed exactly when it gets ready and both the key and the certificate come.** -/
theorem completeOrder_eq_ok_iff {acme : AcmeConfig} {ca : CaReplies} {order : AcmeOrder} :
    completeOrder acme ca = .ok order ↔ ca.pollReady = .ok .ready ∧ order.identifiers = acme.identifiers ∧
      ca.finalize = .ok order.keyPem ∧ ca.pollCertificate = .ok order.certPem := by
  unfold completeOrder
  cases ca.pollReady with
  | error e => exact iff_of_false (fun h => by cases h) (fun h => by cases h.1)
  | ok status =>
    cases status with
    | pending | processing | valid | invalid =>
      exact iff_of_false (fun h => by cases h) (fun h => by cases h.1)
    | ready =>
      cases ca.finalize with
      | error e => exact iff_of_false (fun h => by cases h) (fun h => by cases h.2.2.1)
      | ok keyPem =>
        cases ca.pollCertificate with
        | error e => exact iff_of_false (fun h => by cases h) (fun h => by cases h.2.2.2)
        | ok certPem =>
          obtain ⟨identifiers, cert, key⟩ := order
          constructor
          · intro h
            cases h
            exact ⟨rfl, rfl, rfl, rfl⟩
          · rintro ⟨-, rfl, hkey, hcert⟩
            cases hkey
            cases hcert
            rfl

theorem runOrder_eq_ok {acme : AcmeConfig} {ca : CaReplies} {store store' : ChallengeStore} {order : AcmeOrder}
    (h : runOrder acme ca store = (store', .ok order)) :
    order.identifiers = acme.identifiers ∧ ca.finalize = .ok order.keyPem ∧ ca.pollCertificate = .ok order.certPem := by
  unfold runOrder at h
  split at h
  · cases h
  · split at h
    · cases h
    · exact (completeOrder_eq_ok_iff.1 (Prod.ext_iff.1 h).2).2

/-- **A certificate that is obtained was issued for the configured domains**, and both its files are written. -/
theorem obtain_eq_ok {acme : AcmeConfig} {env : ObtainEnv} {s t : AcmeState} (h : obtain acme env s = (t, .ok ())) :
    ∃ order : AcmeOrder, order.identifiers = acme.identifiers ∧ env.ca.pollCertificate = .ok order.certPem ∧
      t.cert = some ⟨Utf8.encode order.certPem, order, acme⟩ ∧ t.key = some ⟨Utf8.encode order.keyPem, order, acme⟩ := by
  unfold obtain at h
  split at h
  · cases h
  · split at h
    · cases h
    · rename_i store order horder
      obtain ⟨hidentifiers, -, hcert⟩ := runOrder_eq_ok horder
      simp only at h
      split at h
      · cases h
      · rename_i hwritten
        obtain ⟨rfl, hresult⟩ := Prod.ext_iff.1 h
        have hdone : ∀ {w : WriteResult}, w.result = .ok () → w = .done := by
          intro w hw
          cases w with
          | done => rfl
          | failed e written => cases hw
        refine ⟨order, hidentifiers, hcert, ?_, ?_⟩
        · rw [hdone hwritten]
          rfl
        · rw [hdone hresult]
          rfl

/-- Whether it ends well or not, obtaining leaves the certificate file or lets an order of its own write it. -/
theorem obtain_cert (acme : AcmeConfig) (env : ObtainEnv) (s : AcmeState) :
    (obtain acme env s).1.cert = s.cert ∨
      ∃ f, (obtain acme env s).1.cert = some f ∧ f.acme = acme ∧ f.order.identifiers = acme.identifiers := by
  unfold obtain
  split
  · exact Or.inl rfl
  · split
    · exact Or.inl rfl
    · rename_i store order horder
      obtain ⟨hidentifiers, -⟩ := runOrder_eq_ok horder
      have hfile : env.writeCert.file (Utf8.encode order.certPem) order acme s.cert = s.cert ∨
          ∃ f, env.writeCert.file (Utf8.encode order.certPem) order acme s.cert = some f ∧ f.acme = acme ∧
            f.order.identifiers = acme.identifiers := by
        unfold WriteResult.file
        split
        · exact Or.inr ⟨_, rfl, rfl, hidentifiers⟩
        · exact Or.inl rfl
        · exact Or.inr ⟨_, rfl, rfl, hidentifiers⟩
      simp only
      split
      · exact hfile
      · exact hfile

end Zaphyl
