import Zaphyl.AcmeStart
/-!
# RenewalFailure — what a failed renewal leaves of the pair on disk

An order writes the certificate in place, then the key.  A failure before the first write leaves the pair; one of either
write leaves it only where the bytes that were written are those that were there (`pair_kept_iff`).  A key that is not
written leaves the new certificate beside the old key, and the renewal loop sees a certificate that is not due.
-/
namespace Zaphyl

/-! ## What an order needs -/

/-- An authorization that the order passes by, or whose challenge it announces. -/
def Authorization.Accepted (a : Authorization) : Prop :=
  a.status = .valid ∨ a.status = .pending ∧ ∃ challenge, a.http01 = some challenge ∧ challenge.setReady = .ok ()

/-- No step of the order fails, and what is issued. -/
structure CaReplies.Issues (ca : CaReplies) (acme : AcmeConfig) (certPem keyPem : Str) : Prop where
  client : ca.client = .ok ()
  account : ca.account ("mailto:".toList ++ acme.email) = .ok ()
  newOrder : ∃ authorizations, ca.newOrder acme.identifiers = .ok authorizations ∧
    ∀ result ∈ authorizations, ∃ authz, result = .ok authz ∧ authz.Accepted
  ready : ca.pollReady = .ok .ready
  finalize : ca.finalize = .ok keyPem
  issued : ca.pollCertificate = .ok certPem

/-- **The loop ends well exactly when every authorization is accepted.** -/
theorem authorize_eq_ok_iff (store : ChallengeStore) (authorizations : List (Except Str Authorization)) :
    (authorize store authorizations).2 = .ok () ↔
      ∀ result ∈ authorizations, ∃ authz, result = .ok authz ∧ authz.Accepted := by
  induction authorizations generalizing store with
  | nil => exact iff_of_true rfl (fun _ h => nomatch h)
  | cons result rest ih =>
    rw [List.forall_mem_cons]
    cases result with
    | error e => exact iff_of_false (fun h => by cases h) (fun h => by obtain ⟨⟨_, h, -⟩, -⟩ := h; cases h)
    | ok authz =>
      have haccepted : (∃ a, (.ok authz : Except Str Authorization) = .ok a ∧ a.Accepted) ↔ authz.Accepted := by
        constructor
        · rintro ⟨a, ha, h⟩
          cases ha
          exact h
        · exact fun h => ⟨authz, rfl, h⟩
      rw [haccepted]
      unfold authorize
      obtain ⟨status, http01⟩ := authz
      cases status with
      | valid =>
        show (authorize store rest).2 = .ok () ↔ _
        rw [ih]
        exact ⟨fun h => ⟨.inl rfl, h⟩, fun h => h.2⟩
      | pending =>
        cases http01 with
        | none =>
          refine iff_of_false (fun h => by cases h) ?_
          rintro ⟨h | ⟨-, challenge, h, -⟩, -⟩ <;> cases h
        | some challenge =>
          obtain ⟨token, keyAuthorization, setReady⟩ := challenge
          cases setReady with
          | error e =>
            refine iff_of_false (fun h => by cases h) ?_
            rintro ⟨h | ⟨-, challenge, hc, hready⟩, -⟩
            · cases h
            · cases hc
              cases hready
          | ok _ =>
            show (authorize (store.insert token keyAuthorization) rest).2 = .ok () ↔ _
            rw [ih]
            exact ⟨fun h => ⟨.inr ⟨rfl, _, rfl, rfl⟩, h⟩, fun h => h.2⟩
      | invalid | revoked | expired | deactivated =>
        refine iff_of_false (fun h => by cases h) ?_
        rintro ⟨h | ⟨h, -⟩, -⟩ <;> cases h

/-- **An order is issued exactly when none of its steps fails.** -/
theorem runOrder_eq_ok_iff (acme : AcmeConfig) (ca : CaReplies) (store : ChallengeStore) (certPem keyPem : Str) :
    (runOrder acme ca store).2 = .ok ⟨acme.identifiers, certPem, keyPem⟩ ↔ ca.Issues acme certPem keyPem := by
  unfold runOrder
  constructor
  · intro h
    split at h
    · cases h
    · rename_i authorizations hplaced
      obtain ⟨hclient, haccount, hnew⟩ := placeOrder_eq_ok_iff.1 hplaced
      split at h
      · cases h
      · rename_i store' hauthorized
        have hall := (authorize_eq_ok_iff store authorizations).1 (by rw [hauthorized])
        obtain ⟨hready, -, hkey, hcert⟩ := completeOrder_eq_ok_iff.1 h
        exact ⟨hclient, haccount, ⟨authorizations, hnew, hall⟩, hready, hkey, hcert⟩
  · intro h
    obtain ⟨authorizations, hnew, hall⟩ := h.newOrder
    rw [placeOrder_eq_ok_iff.2 ⟨h.client, h.account, hnew⟩]
    have hauthorized := (authorize_eq_ok_iff store authorizations).2 hall
    dsimp only
    split
    · rename_i store' e hfailed
      rw [hfailed] at hauthorized
      cases hauthorized
    · exact completeOrder_eq_ok_iff.2 ⟨h.ready, rfl, h.finalize, h.issued⟩

theorem issues_of_runOrder {acme : AcmeConfig} {ca : CaReplies} {store store' : ChallengeStore} {order : AcmeOrder}
    (h : runOrder acme ca store = (store', .ok order)) : ca.Issues acme order.certPem order.keyPem := by
  have hidentifiers := (runOrder_eq_ok h).1
  rw [← runOrder_eq_ok_iff acme ca store, ← hidentifiers, h]

theorem runOrder_of_issues {acme : AcmeConfig} {ca : CaReplies} {certPem keyPem : Str}
    (h : ca.Issues acme certPem keyPem) (store : ChallengeStore) :
    ∃ store', runOrder acme ca store = (store', .ok ⟨acme.identifiers, certPem, keyPem⟩) :=
  ⟨_, Prod.ext rfl ((runOrder_eq_ok_iff acme ca store certPem keyPem).2 h)⟩

/-! ## The pair on disk -/

/-- The bytes of a file of the cache directory. -/
def contentOf (file : Option CacheFile) : Option Bytes := file.map CacheFile.content

/-- The two files are a certificate and its key. -/
structure AcmeState.Pair (belongs : Bytes → Bytes → Prop) (s : AcmeState) (cert key : Bytes) : Prop where
  cert_eq : contentOf s.cert = some cert
  key_eq : contentOf s.key = some key
  matching : belongs cert key

/-- **A failed order leaves the pair on disk**, and a certificate that was due stays due. -/
def KeepsPair (belongs : Bytes → Bytes → Prop) (acme : AcmeConfig) (env : ObtainEnv) (s : AcmeState) : Prop :=
  ∀ cert key, s.Pair belongs cert key → ∀ e, (obtain acme env s).2 = .error e →
    (obtain acme env s).1.Pair belongs cert key ∧
      ∀ (certNotAfterUnix : Str → Option Int) (window now later : Int), now ≤ later →
        s.due certNotAfterUnix now window = true →
          (obtain acme env s).1.due certNotAfterUnix later window = true

/-- A write that fails leaves the file's bytes, or writes those of the pair. -/
def WriteResult.Leaves (w : WriteResult) (content old : Bytes) : Prop :=
  ∀ e n, w = .failed e (some n) → content.take n = old

/-- What fails leaves the pair: a failed write of the certificate did not touch it, and a failed write of the key did
not, with a certificate before it that was the same. -/
def ObtainEnv.LeavesPair (env : ObtainEnv) (acme : AcmeConfig) (cert key : Bytes) : Prop :=
  env.runtime = .ok () → ∀ certPem keyPem, env.ca.Issues acme certPem keyPem →
    env.writeCert.Leaves (Utf8.encode certPem) cert ∧
      (env.writeCert = .done → env.writeKey ≠ .done →
        Utf8.encode certPem = cert ∧ env.writeKey.Leaves (Utf8.encode keyPem) key)

theorem contentOf_file_failed (e : Str) (written : Option Nat) (content : Bytes) (order : AcmeOrder) (acme : AcmeConfig)
    {file : Option CacheFile} {old : Bytes} (hold : contentOf file = some old) :
    contentOf ((WriteResult.failed e written).file content order acme file) = some old ↔
      (WriteResult.failed e written).Leaves content old := by
  unfold WriteResult.Leaves
  cases written with
  | none => exact iff_of_true hold (fun _ _ h => by cases h)
  | some n =>
    show some (content.take n) = some old ↔ _
    rw [Option.some.injEq]
    constructor
    · rintro hsame e' n' heq
      cases heq
      exact hsame
    · exact fun hall => hall e n rfl

/-- An order that is not issued leaves both files. -/
theorem obtain_not_issued {acme : AcmeConfig} {env : ObtainEnv} (s : AcmeState)
    (h : ¬ (env.runtime = .ok () ∧ ∃ certPem keyPem, env.ca.Issues acme certPem keyPem)) :
    (obtain acme env s).1.cert = s.cert ∧ (obtain acme env s).1.key = s.key := by
  unfold obtain
  cases hruntime : env.runtime with
  | error e => exact ⟨rfl, rfl⟩
  | ok _ =>
    cases horder : runOrder acme env.ca s.store with
    | mk store result =>
      cases result with
      | error e => exact ⟨rfl, rfl⟩
      | ok order => exact absurd ⟨hruntime, _, _, issues_of_runOrder horder⟩ h

section

variable {acme : AcmeConfig} {env : ObtainEnv} {certPem keyPem : Str}

/-- An order that is issued and whose certificate is not written leaves the key. -/
theorem obtain_cert_fails (s : AcmeState) (hruntime : env.runtime = .ok ()) (h : env.ca.Issues acme certPem keyPem)
    {e : Str} {written : Option Nat} (hcert : env.writeCert = .failed e written) :
    (obtain acme env s).2 = .error e ∧ (obtain acme env s).1.key = s.key ∧
      (obtain acme env s).1.cert =
        env.writeCert.file (Utf8.encode certPem) ⟨acme.identifiers, certPem, keyPem⟩ acme s.cert := by
  obtain ⟨store, hrun⟩ := runOrder_of_issues h s.store
  unfold obtain
  rw [hruntime, hcert, hrun]
  exact ⟨rfl, rfl, rfl⟩

/-- An order that is issued and whose certificate is written ends as the write of the key. -/
theorem obtain_cert_written (s : AcmeState) (hruntime : env.runtime = .ok ()) (h : env.ca.Issues acme certPem keyPem)
    (hcert : env.writeCert = .done) :
    (obtain acme env s).2 = env.writeKey.result ∧
      (obtain acme env s).1.cert = some ⟨Utf8.encode certPem, ⟨acme.identifiers, certPem, keyPem⟩, acme⟩ ∧
      (obtain acme env s).1.key =
        env.writeKey.file (Utf8.encode keyPem) ⟨acme.identifiers, certPem, keyPem⟩ acme s.key := by
  obtain ⟨store, hrun⟩ := runOrder_of_issues h s.store
  unfold obtain
  rw [hruntime, hcert, hrun]
  exact ⟨rfl, rfl, rfl⟩

end

/-- A certificate file that keeps its bytes stays due. -/
theorem due_of_content {certNotAfterUnix : Str → Option Int} {s t : AcmeState} (h : contentOf t.cert = contentOf s.cert)
    {window now later : Int} (hle : now ≤ later) (hdue : s.due certNotAfterUnix now window = true) :
    t.due certNotAfterUnix later window = true := by
  have hread : t.cert.bind (fun f => readToString f.content) = s.cert.bind (fun f => readToString f.content) := by
    have hmap : ∀ file : Option CacheFile, file.bind (fun f => readToString f.content) =
        (contentOf file).bind readToString := by
      intro file
      cases file <;> rfl
    rw [hmap, hmap, h]
  unfold AcmeState.due at hdue ⊢
  rw [hread]
  cases hpem : s.cert.bind (fun f => readToString f.content) with
  | none => rfl
  | some pem =>
    rw [hpem] at hdue
    unfold needsRenewal at hdue ⊢
    dsimp only at hdue ⊢
    cases hparsed : certNotAfterUnix pem with
    | none => rfl
    | some notAfter =>
      rw [hparsed] at hdue
      have hlt : saturateI64 (notAfter - now) < window := of_decide_eq_true hdue
      refine decide_eq_true (lt_of_le_of_lt ?_ hlt)
      unfold saturateI64
      omega

/-- The files after a failed order hold the pair exactly when what failed leaves it. -/
theorem contents_kept_iff {acme : AcmeConfig} {env : ObtainEnv} {s : AcmeState} {cert key : Bytes}
    (hcert : contentOf s.cert = some cert) (hkey : contentOf s.key = some key) :
    (∀ e, (obtain acme env s).2 = .error e →
        contentOf (obtain acme env s).1.cert = some cert ∧ contentOf (obtain acme env s).1.key = some key) ↔
      env.LeavesPair acme cert key := by
  by_cases hissued : env.runtime = .ok () ∧ ∃ certPem keyPem, env.ca.Issues acme certPem keyPem
  · obtain ⟨hruntime, certPem, keyPem, hissues⟩ := hissued
    -- the replies determine what is issued
    have hleaves : env.LeavesPair acme cert key ↔
        env.writeCert.Leaves (Utf8.encode certPem) cert ∧
          (env.writeCert = .done → env.writeKey ≠ .done →
            Utf8.encode certPem = cert ∧ env.writeKey.Leaves (Utf8.encode keyPem) key) := by
      refine ⟨fun h => h hruntime certPem keyPem hissues, fun h _ certPem' keyPem' hissues' => ?_⟩
      have hsameCert := hissues'.issued.symm.trans hissues.issued
      have hsameKey := hissues'.finalize.symm.trans hissues.finalize
      cases hsameCert
      cases hsameKey
      exact h
    rw [hleaves]
    cases hwrite : env.writeCert with
    | failed e written =>
      obtain ⟨hresult, hsame, hfile⟩ := obtain_cert_fails s hruntime hissues hwrite
      rw [hresult, hsame, hfile, hwrite, contentOf_file_failed e written _ _ _ hcert]
      exact ⟨fun h => ⟨(h e rfl).1, fun hdone => by cases hdone⟩, fun h _ _ => ⟨h.1, hkey⟩⟩
    | done =>
      obtain ⟨hresult, hwritten, hfile⟩ := obtain_cert_written s hruntime hissues hwrite
      rw [hresult, hwritten, hfile]
      have hdone : WriteResult.done.Leaves (Utf8.encode certPem) cert := fun _ _ h => by cases h
      cases hwriteKey : env.writeKey with
      | done => exact iff_of_true (fun _ h => by cases h) ⟨hdone, fun _ h => absurd rfl h⟩
      | failed e written =>
        rw [contentOf_file_failed e written _ _ _ hkey]
        show (∀ e', Except.error e = .error e' → some (Utf8.encode certPem) = some cert ∧ _) ↔ _
        rw [Option.some.injEq]
        exact ⟨fun h => ⟨hdone, fun _ _ => h e rfl⟩, fun h _ _ => h.2 rfl (fun h => by cases h)⟩
  · obtain ⟨hsameCert, hsameKey⟩ := obtain_not_issued s hissued
    rw [hsameCert, hsameKey]
    exact iff_of_true (fun _ _ => ⟨hcert, hkey⟩)
      (fun hruntime certPem keyPem hissues => absurd ⟨hruntime, certPem, keyPem, hissues⟩ hissued)

/-- **A failed order leaves the pair on disk exactly when the write that failed does**, and the one before it wrote what
was there. -/
theorem pair_kept_iff (belongs : Bytes → Bytes → Prop) (acme : AcmeConfig) (env : ObtainEnv) (s : AcmeState) :
    KeepsPair belongs acme env s ↔ ∀ cert key, s.Pair belongs cert key → env.LeavesPair acme cert key := by
  constructor
  · intro h cert key hpair
    rw [← contents_kept_iff hpair.cert_eq hpair.key_eq]
    intro e he
    obtain ⟨hkept, -⟩ := h cert key hpair e he
    exact ⟨hkept.cert_eq, hkept.key_eq⟩
  · intro h cert key hpair e he
    obtain ⟨hcert, hkey⟩ := (contents_kept_iff hpair.cert_eq hpair.key_eq).2 (h cert key hpair) e he
    refine ⟨⟨hcert, hkey, hpair.matching⟩, fun certNotAfterUnix window now later hle hdue => ?_⟩
    exact due_of_content (hcert.trans hpair.cert_eq.symm) hle hdue

/-! ## A disk that fills up between the two writes -/

/-- An X.509 certificate that expires 90 days after it was issued, 60 days after `issuedPem`. -/
@[irreducible] def renewedPem : Str :=
  ("-----BEGIN CERTIFICATE-----\n" ++
    "MIHIMHwCAQEwBQYDK2VwMBExDzANBgNVBAMMBmEudGVzdDAeFw0yNzAxMTgwMzAw\n" ++
    "MTVaFw0yNzA0MTgwMzAwMTVaMBExDzANBgNVBAMMBmEudGVzdDAqMAUGAytlcAMh\n" ++
    "AC89GTPLSdWDo9ul3zTX0McEJgJCVlaClh0HWLVhv/76MAUGAytlcANBAGZSa6wd\n" ++
    "4wg9C16C1JGE5/LmXidKFg6BFJmqzP6g2UfyCUYWE7YqsheHOXe12jhrEUvUlnJu\n" ++
    "oDdjHm9CVB1viQY=\n" ++
    "-----END CERTIFICATE-----\n").toList

def renewedNotAfter (certPem : Str) : Option Int :=
  if certPem = renewedPem then some 1808017215 else AcmeHost.issuedNotAfter certPem

/-- The two pairs that were issued. -/
def issuedTogether (cert key : Bytes) : Prop :=
  cert = Utf8.encode AcmeHost.issuedPem ∧ key = Utf8.encode "key".toList ∨
    cert = Utf8.encode renewedPem ∧ key = Utf8.encode "renewed key".toList

/-- The write of the key opens the file and writes nothing. -/
def diskFull : ObtainEnv where
  runtime := .ok ()
  ca := { AcmeHost.issuingCa with finalize := .ok "renewed key".toList, pollCertificate := .ok renewedPem }
  writeCert := .done
  writeKey := .failed "No space left on device (os error 28)".toList (some 0)

def issuedState : AcmeState :=
  let order := ⟨AcmeHost.oneSite.identifiers, AcmeHost.issuedPem, "key".toList⟩
  ⟨ChallengeStore.new, some ⟨Utf8.encode AcmeHost.issuedPem, order, AcmeHost.oneSite⟩,
    some ⟨Utf8.encode "key".toList, order, AcmeHost.oneSite⟩⟩

theorem due_of_pem {certNotAfterUnix : Str → Option Int} {s : AcmeState} {pem : Str} {notAfter : Int}
    (h : contentOf s.cert = some (Utf8.encode pem)) (hparsed : certNotAfterUnix pem = some notAfter) (now window : Int) :
    s.due certNotAfterUnix now window = decide (saturateI64 (notAfter - now) < window) := by
  obtain ⟨f, hf, hcontent⟩ := Option.map_eq_some_iff.1 h
  have hread : s.cert.bind (fun f => readToString f.content) = some pem := by
    rw [hf, Option.bind_some, hcontent, readToString, Utf8.lossy_encode, if_pos rfl]
  unfold AcmeState.due
  rw [hread]
  show needsRenewal certNotAfterUnix pem now window = _
  rw [needsRenewal, hparsed]

theorem issuedPem_ne_renewedPem : AcmeHost.issuedPem ≠ renewedPem := by
  unfold AcmeHost.issuedPem renewedPem
  rw [ne_eq, String.toList_inj]
  simp only [String.append_assoc, String.append_right_inj]
  intro h
  have hlines := congrArg String.toList h
  simp only [String.toList_append] at hlines
  -- the second lines are as long, and hold the two dates
  have hdates := (List.append_inj hlines (by rw [String.length_toList, String.length_toList]; decide)).1
  rw [String.toList_inj] at hdates
  revert hdates
  simp

/-- **A renewal whose key is not written leaves a new certificate, an empty key, and nothing due.** -/
theorem new_certificate_without_key :
    issuedState.Pair issuedTogether (Utf8.encode AcmeHost.issuedPem) (Utf8.encode "key".toList) ∧
      issuedState.due renewedNotAfter 1800244800 AcmeHost.oneSite.window = true ∧
      (obtain AcmeHost.oneSite diskFull issuedState).2 = .error "No space left on device (os error 28)".toList ∧
      contentOf (obtain AcmeHost.oneSite diskFull issuedState).1.cert = some (Utf8.encode renewedPem) ∧
      contentOf (obtain AcmeHost.oneSite diskFull issuedState).1.key = some [] ∧
      (obtain AcmeHost.oneSite diskFull issuedState).1.due renewedNotAfter 1800244800 AcmeHost.oneSite.window = false ∧
      ¬ KeepsPair issuedTogether AcmeHost.oneSite diskFull issuedState := by
  have hpair : issuedState.Pair issuedTogether (Utf8.encode AcmeHost.issuedPem) (Utf8.encode "key".toList) :=
    ⟨rfl, rfl, .inl ⟨rfl, rfl⟩⟩
  have hold : renewedNotAfter AcmeHost.issuedPem = some 1802833215 := by
    rw [renewedNotAfter, if_neg issuedPem_ne_renewedPem, AcmeHost.issuedNotAfter_issuedPem]
  have hnew : renewedNotAfter renewedPem = some 1808017215 := if_pos rfl
  have hcert : contentOf (obtain AcmeHost.oneSite diskFull issuedState).1.cert = some (Utf8.encode renewedPem) := rfl
  have hkey : contentOf (obtain AcmeHost.oneSite diskFull issuedState).1.key = some [] := rfl
  refine ⟨hpair, ?_, rfl, hcert, hkey, ?_, ?_⟩
  · rw [due_of_pem hpair.cert_eq hold]
    decide
  · rw [due_of_pem hcert hnew]
    decide
  · intro h
    obtain ⟨hkept, -⟩ := h _ _ hpair _ rfl
    have hempty := hkept.key_eq
    rw [hkey] at hempty
    exact absurd hempty (by decide)

end Zaphyl
