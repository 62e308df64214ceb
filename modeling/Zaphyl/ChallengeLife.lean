import Zaphyl.AcmeStart
/-!
# ChallengeLife — the tokens an order leaves behind

An order registers a token for each pending authorization on its way, and nothing calls `remove`.  It leaves the store as
it was exactly when it registers none (`tokens_removed_iff`).
-/
namespace Zaphyl

/-! ## What an order registers -/

/-- The challenges that the loop over the authorizations registers, in order. -/
def registered : List (Except Str Authorization) → List Challenge
  | [] => []
  | .error _ :: _ => []
  | .ok authz :: rest =>
    match authz.status, authz.http01 with
    | .valid, _ => registered rest
    | .pending, some challenge =>
      match challenge.setReady with
      | .error _ => [challenge]
      | .ok () => challenge :: registered rest
    | _, _ => []

/-- The challenges that an order registers. -/
def orderChallenges (acme : AcmeConfig) (ca : CaReplies) : List Challenge :=
  match placeOrder acme ca with
  | .error _ => []
  | .ok authorizations => registered authorizations

def ChallengeStore.register (s : ChallengeStore) (c : Challenge) : ChallengeStore := s.insert c.token c.keyAuthorization

theorem authorize_store (store : ChallengeStore) (authorizations : List (Except Str Authorization)) :
    (authorize store authorizations).1 = (registered authorizations).foldl ChallengeStore.register store := by
  induction authorizations generalizing store with
  | nil => rfl
  | cons result rest ih =>
    cases result with
    | error e => rfl
    | ok authz =>
      obtain ⟨status, http01⟩ := authz
      cases status with
      | valid => exact ih store
      | pending =>
        cases http01 with
        | none => rfl
        | some challenge =>
          obtain ⟨token, keyAuthorization, setReady⟩ := challenge
          cases setReady with
          | error e => rfl
          | ok _ => exact ih (store.insert token keyAuthorization)
      | invalid | revoked | expired | deactivated => rfl

/-- **An order leaves the store with all its challenges registered**, however it ends. -/
theorem runOrder_store (acme : AcmeConfig) (ca : CaReplies) (store : ChallengeStore) :
    (runOrder acme ca store).1 = (orderChallenges acme ca).foldl ChallengeStore.register store := by
  unfold runOrder orderChallenges
  cases placeOrder acme ca with
  | error e => rfl
  | ok authorizations =>
    show _ = (registered authorizations).foldl ChallengeStore.register store
    rw [← authorize_store]
    dsimp only
    split
    · rename_i store' e hauthorized
      rw [hauthorized]
    · rename_i store' hauthorized
      rw [hauthorized]

/-- A token that is not registered keeps its answer. -/
theorem register_other {challenges : List Challenge} {token : Str} (h : ∀ c ∈ challenges, c.token ≠ token)
    (store : ChallengeStore) : (challenges.foldl ChallengeStore.register store).tokens token = store.tokens token := by
  induction challenges generalizing store with
  | nil => rfl
  | cons c challenges ih =>
    rw [List.foldl_cons, ih (fun d hd => h d (List.mem_cons_of_mem c hd))]
    exact Function.update_of_ne (Ne.symm (h c List.mem_cons_self)) _ _

/-- A token that is served stays served, whatever is registered. -/
theorem served_of_served (challenges : List Challenge) {store : ChallengeStore} {token : Str}
    (h : store.tokens token ≠ none) : (challenges.foldl ChallengeStore.register store).tokens token ≠ none := by
  induction challenges generalizing store with
  | nil => exact h
  | cons c challenges ih =>
    refine ih ?_
    show Function.update store.tokens c.token (some c.keyAuthorization) token ≠ none
    by_cases hsame : token = c.token
    · rw [hsame, Function.update_self]
      exact Option.some_ne_none _
    · rw [Function.update_of_ne hsame]
      exact h

/-- Every token that is registered is served. -/
theorem served_of_registered {challenges : List Challenge} {c : Challenge} (h : c ∈ challenges) (store : ChallengeStore) :
    (challenges.foldl ChallengeStore.register store).tokens c.token ≠ none := by
  induction challenges generalizing store with
  | nil => cases h
  | cons d challenges ih =>
    obtain rfl | h := List.mem_cons.1 h
    · refine served_of_served challenges ?_
      show Function.update store.tokens c.token (some c.keyAuthorization) c.token ≠ none
      rw [Function.update_self]
      exact Option.some_ne_none _
    · exact ih h (store.register d)

/-! ## Orders that offer no challenge -/

/-- No authorization is reached that is pending and offers an HTTP-01 challenge. -/
def OffersNone (authorizations : List (Except Str Authorization)) : Prop :=
  ∀ valid authz rest, authorizations = valid ++ .ok authz :: rest →
    (∀ result ∈ valid, ∃ a : Authorization, result = .ok a ∧ a.status = .valid) →
      authz.status = .pending → authz.http01 = none

/-- The order is not placed, or its authorizations offer no challenge. -/
def CaReplies.OffersNone (ca : CaReplies) (acme : AcmeConfig) : Prop :=
  ca.client = .ok () → ca.account ("mailto:".toList ++ acme.email) = .ok () →
    ∀ authorizations, ca.newOrder acme.identifiers = .ok authorizations → Zaphyl.OffersNone authorizations

theorem offersNone_cons_valid {authz : Authorization} (h : authz.status = .valid)
    (rest : List (Except Str Authorization)) : OffersNone (.ok authz :: rest) ↔ OffersNone rest := by
  constructor
  · intro hnone valid a after hsplit hvalid
    refine hnone (.ok authz :: valid) a after (by rw [hsplit, List.cons_append]) ?_
    exact List.forall_mem_cons.2 ⟨⟨authz, rfl, h⟩, hvalid⟩
  · intro hnone valid a after hsplit hvalid hpending
    cases valid with
    | nil =>
      cases (List.cons.inj hsplit).1
      rw [h] at hpending
      cases hpending
    | cons v valid =>
      exact hnone valid a after (List.cons.inj hsplit).2 (fun r hr => hvalid r (List.mem_cons_of_mem v hr)) hpending

theorem offersNone_cons_stop {result : Except Str Authorization} (h : ∀ a, result = .ok a → a.status ≠ .valid)
    (rest : List (Except Str Authorization)) :
    OffersNone (result :: rest) ↔ ∀ a : Authorization, result = .ok a → a.status = .pending → a.http01 = none := by
  constructor
  · rintro hnone a rfl
    exact hnone [] a rest rfl (fun _ h => nomatch h)
  · intro hnone valid a after hsplit hvalid
    cases valid with
    | nil => exact hnone a (List.cons.inj hsplit).1
    | cons v valid =>
      obtain ⟨rfl, -⟩ := List.cons.inj hsplit
      obtain ⟨b, hb, hbvalid⟩ := hvalid result List.mem_cons_self
      exact absurd hbvalid (h b hb)

/-- **The loop registers nothing exactly when no challenge is offered to it.** -/
theorem registered_eq_nil_iff (authorizations : List (Except Str Authorization)) :
    registered authorizations = [] ↔ OffersNone authorizations := by
  induction authorizations with
  | nil =>
    refine iff_of_true rfl ?_
    rintro valid authz rest h
    cases valid <;> cases h
  | cons result rest ih =>
    cases result with
    | error e =>
      rw [offersNone_cons_stop (fun a h => by cases h)]
      exact iff_of_true rfl (fun a h => by cases h)
    | ok authz =>
      obtain ⟨status, http01⟩ := authz
      cases status with
      | valid =>
        rw [offersNone_cons_valid rfl, ← ih]
        rfl
      | pending =>
        rw [offersNone_cons_stop (fun a h => by cases h; exact fun hstatus => by cases hstatus)]
        cases http01 with
        | none => exact iff_of_true rfl (fun a h _ => by cases h; rfl)
        | some challenge =>
          refine iff_of_false ?_ (fun h => by cases h _ rfl rfl)
          obtain ⟨token, keyAuthorization, setReady⟩ := challenge
          cases setReady with
          | error e => exact fun h => by cases h
          | ok _ => exact fun h => by cases h
      | invalid | revoked | expired | deactivated =>
        rw [offersNone_cons_stop (fun a h => by cases h; exact fun hstatus => by cases hstatus)]
        exact iff_of_true rfl (fun a h hpending => by cases h; cases hpending)

theorem orderChallenges_eq_nil_iff (acme : AcmeConfig) (ca : CaReplies) :
    orderChallenges acme ca = [] ↔ ca.OffersNone acme := by
  unfold orderChallenges CaReplies.OffersNone
  cases hplaced : placeOrder acme ca with
  | error e =>
    refine iff_of_true rfl (fun hclient haccount authorizations hnew => ?_)
    have hok := placeOrder_eq_ok_iff.2 ⟨hclient, haccount, hnew⟩
    rw [hplaced] at hok
    cases hok
  | ok authorizations =>
    obtain ⟨hclient, haccount, hnew⟩ := placeOrder_eq_ok_iff.1 hplaced
    show registered authorizations = [] ↔ _
    rw [registered_eq_nil_iff]
    constructor
    · rintro h - - authorizations' hnew'
      cases hnew'.symm.trans hnew
      exact h
    · exact fun h => h hclient haccount authorizations hnew

/-! ## Orders and runs -/

/-- **No token outlives its order**: those it inserted are removed, and the others are served as before. -/
structure TokensRemoved (acme : AcmeConfig) (ca : CaReplies) (store : ChallengeStore) : Prop where
  removed : ∀ c ∈ orderChallenges acme ca, (runOrder acme ca store).1.tokens c.token = none
  others : ∀ token, (∀ c ∈ orderChallenges acme ca, c.token ≠ token) →
    (runOrder acme ca store).1.tokens token = store.tokens token

theorem tokensRemoved_iff (acme : AcmeConfig) (ca : CaReplies) (store : ChallengeStore) :
    TokensRemoved acme ca store ↔ ca.OffersNone acme := by
  rw [← orderChallenges_eq_nil_iff]
  constructor
  · intro h
    rw [List.eq_nil_iff_forall_not_mem]
    intro c hc
    have hremoved := h.removed c hc
    rw [runOrder_store] at hremoved
    exact served_of_registered hc store hremoved
  · intro hnone
    constructor
    · rw [hnone]
      exact fun c hc => nomatch hc
    · intro token hother
      rw [runOrder_store]
      exact register_other hother store

/-- An order that offers no challenge leaves the store. -/
theorem runOrder_offersNone {acme : AcmeConfig} {ca : CaReplies} (h : ca.OffersNone acme) (store : ChallengeStore) :
    (runOrder acme ca store).1 = store := by
  rw [runOrder_store, (orderChallenges_eq_nil_iff acme ca).2 h]
  rfl

theorem obtain_offersNone {acme : AcmeConfig} {env : ObtainEnv} (h : env.ca.OffersNone acme) (s : AcmeState) :
    (obtain acme env s).1.store = s.store := by
  have hstore := runOrder_offersNone h s.store
  unfold obtain
  cases env.runtime with
  | error e => rfl
  | ok _ =>
    cases horder : runOrder acme env.ca s.store with
    | mk store result =>
      rw [horder] at hstore
      cases result with
      | error e => exact hstore
      | ok order =>
        cases env.writeCert with
        | done => exact hstore
        | failed e written => exact hstore

namespace AcmeHost

/-- The order that an event may run offers no challenge. -/
def OffersNone (h : AcmeHost) : AcmeEvent → Prop
  | .start config _ env => env.ca.OffersNone config
  | .wake _ env => ∀ r, h.runner = some r → env.ca.OffersNone r.config
  | .removeCert => True
  | .removeKey => True

/-- A step whose order offers no challenge leaves the store, or starts a process with an empty one. -/
theorem step_store (certNotAfterUnix : Str → Option Int) {h : AcmeHost} {e : AcmeEvent} (hnone : h.OffersNone e) :
    (h.step certNotAfterUnix e).store = h.store ∨ (h.step certNotAfterUnix e).store = ChallengeStore.new := by
  cases e with
  | start config dir env =>
    right
    show (h.startRunner config dir env).1.store = ChallengeStore.new
    have hobtain := obtain_offersNone hnone { h.toAcmeState with store := ChallengeStore.new }
    unfold startRunner AcmeRunner.start
    cases dir with
    | error e => rfl
    | ok _ =>
      dsimp only
      split
      · rfl
      · split
        · rename_i s e hfailed
          rw [hfailed] at hobtain
          exact hobtain
        · rename_i s hok
          rw [hok] at hobtain
          exact hobtain
  | wake now env =>
    left
    unfold AcmeHost.step
    cases hrunner : h.runner with
    | none => rfl
    | some r =>
      show (r.renew certNotAfterUnix now env h.toAcmeState).store = h.store
      unfold AcmeRunner.renew
      split
      · exact obtain_offersNone (hnone r hrunner) h.toAcmeState
      · rfl
  | removeCert => exact .inl rfl
  | removeKey => exact .inl rfl

theorem new_responseFor (path : Str) : ChallengeStore.new.responseFor path = none := by
  unfold ChallengeStore.responseFor
  split
  · split <;> rfl
  · rfl

/-- **A run whose orders offer no challenge serves nothing that was not served before it.** -/
theorem run_responseFor {certNotAfterUnix : Str → Option Int} {h t : AcmeHost} {es : List AcmeEvent}
    (hrun : Runs.Run (Runs.Run.Where (Next certNotAfterUnix) OffersNone) h es t) {path body : Str}
    (hserved : t.store.responseFor path = some body) : h.store.responseFor path = some body := by
  refine hrun.invariant_where (P := fun u => u.store.responseFor path = some body → h.store.responseFor path = some body)
    (fun s e u hs hnone hu => ?_) id hserved
  rw [hu]
  obtain hsame | hnew := step_store certNotAfterUnix hnone
  · rw [hsame]
    exact hs
  · rw [hnew, new_responseFor]
    exact fun h => by cases h

end AcmeHost

/-- **Every token an order registered is removed exactly when the order registers none**, and renewals that all register
none serve nothing new. -/
theorem tokens_removed_iff (acme : AcmeConfig) (ca : CaReplies) (store : ChallengeStore)
    (certNotAfterUnix : Str → Option Int) :
    (TokensRemoved acme ca store ↔ ca.OffersNone acme) ∧
      ∀ (h t : AcmeHost) (es : List AcmeEvent),
        Runs.Run (Runs.Run.Where (AcmeHost.Next certNotAfterUnix) AcmeHost.OffersNone) h es t →
          ∀ path body, t.store.responseFor path = some body → h.store.responseFor path = some body :=
  ⟨tokensRemoved_iff acme ca store, fun _ _ _ hrun _ _ hserved => AcmeHost.run_responseFor hrun hserved⟩

/-- A CA that still holds valid authorizations, and asks for no challenge. -/
def validEnv : ObtainEnv :=
  { AcmeHost.issuingEnv with
    ca := { AcmeHost.issuingCa with newOrder := fun ids => .ok (ids.map (fun _ => .ok ⟨.valid, none⟩)) } }

theorem validEnv_offersNone : validEnv.ca.OffersNone AcmeHost.oneSite :=
  (orderChallenges_eq_nil_iff AcmeHost.oneSite validEnv.ca).1 rfl

def validStarted : AcmeHost :=
  AcmeHost.empty.step AcmeHost.issuedNotAfter (.start AcmeHost.oneSite (.ok ()) validEnv)

def validRenewed : AcmeHost := validStarted.step AcmeHost.issuedNotAfter (.wake AcmeHost.yearLater validEnv)

theorem validRenewed_run :
    Runs.Run (Runs.Run.Where (AcmeHost.Next AcmeHost.issuedNotAfter) AcmeHost.OffersNone) AcmeHost.empty
      [.start AcmeHost.oneSite (.ok ()) validEnv, .wake AcmeHost.yearLater validEnv] validRenewed := by
  have hwake : validStarted.OffersNone (.wake AcmeHost.yearLater validEnv) := by
    intro r hr
    cases hr
    exact validEnv_offersNone
  exact .cons ⟨rfl, validEnv_offersNone⟩ (.cons ⟨rfl, hwake⟩ (.nil _))

/-- A start and a renewal with it serve no token. -/
theorem valid_orders_serve_nothing :
    TokensRemoved AcmeHost.oneSite validEnv.ca ChallengeStore.new ∧
      validRenewed.store.responseFor "/.well-known/acme-challenge/token".toList = none := by
  have hrule := tokens_removed_iff AcmeHost.oneSite validEnv.ca ChallengeStore.new AcmeHost.issuedNotAfter
  refine ⟨hrule.1.2 validEnv_offersNone, ?_⟩
  rw [Option.eq_none_iff_forall_ne_some]
  intro body hserved
  have hbefore := hrule.2 _ _ _ validRenewed_run _ body hserved
  rw [AcmeHost.empty, AcmeHost.new_responseFor] at hbefore
  cases hbefore

/-- **An order that ends well leaves its token served.** -/
theorem token_outlives_order :
    (runOrder AcmeHost.oneSite AcmeHost.issuingCa ChallengeStore.new).2 =
        .ok ⟨AcmeHost.oneSite.identifiers, AcmeHost.issuedPem, "key".toList⟩ ∧
      (runOrder AcmeHost.oneSite AcmeHost.issuingCa ChallengeStore.new).1.responseFor
        "/.well-known/acme-challenge/token".toList = some "token.thumbprint".toList ∧
      ¬ TokensRemoved AcmeHost.oneSite AcmeHost.issuingCa ChallengeStore.new := by
  refine ⟨rfl, by decide, ?_⟩
  intro h
  have hremoved := h.removed ⟨"token".toList, "token.thumbprint".toList, .ok ()⟩ List.mem_cons_self
  exact absurd hremoved (by decide)

end Zaphyl
