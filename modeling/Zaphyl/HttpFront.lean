import Zaphyl.Authority
import Zaphyl.ChallengeLife
import Zaphyl.HeaderLines
/-!
# HttpFront — the plain-HTTP front while an order runs

The front answers challenges from the store that an order registers them in, and any other request as it is told.  An
order takes a step for each of its replies, and the front's requests come in between.  At every point of an order the
front serves the challenges whose validation the CA may have begun, and the order ends, as `runOrder` says
(`challenges_served_in_run`).
-/
namespace Zaphyl

namespace HeaderName

def contentType : HeaderName := ⟨"content-type".toList, by decide⟩
def location : HeaderName := ⟨"location".toList, by decide⟩

end HeaderName

namespace HttpFront

/-! ## The front -/

/-- What to do with a request that is not an ACME challenge. -/
inductive NonChallenge
  | redirectToHttps (httpsPort : UInt16)
  | notFound
deriving DecidableEq

structure FrontResponse where
  head : ResponseHead
  body : Bytes
deriving DecidableEq

/-- A 308 redirect; none when the `Location` is no header value, which panics. -/
def redirectToHttps (req : Request) (httpsPort : UInt16) : Option FrontResponse :=
  (HeaderValue.ofStr (redirectLocation req httpsPort)).map (fun location =>
    ⟨⟨308, (HeaderMap.mk []).append HeaderName.location location⟩, []⟩)

theorem textPlain_wf : (Utf8.encode "text/plain".toList).all isValueByte = true := by decide

def textPlain : HeaderValue := ⟨Utf8.encode "text/plain".toList, textPlain_wf⟩

/-- The response for one request: ACME challenge, redirect, or 404. -/
def respond (req : Request) (store : ChallengeStore) (behavior : NonChallenge) : Option FrontResponse :=
  match store.responseFor req.uri.path with
  | some body => some ⟨⟨200, (HeaderMap.mk []).append HeaderName.contentType textPlain⟩, Utf8.encode body⟩
  | none =>
    match behavior with
    | .redirectToHttps port => redirectToHttps req port
    | .notFound => some ⟨⟨404, ⟨[]⟩⟩, []⟩

/-! ## An order, step by step -/

/-- What an order waits for: the next authorization, the reply to `set_ready` of a challenge that is registered, that
the order gets ready, the key, or the certificate. -/
inductive OrderPc
  | authorizing (rest : List (Except Str Authorization))
  | readying (challenge : Challenge) (rest : List (Except Str Authorization))
  | polling
  | finalizing
  | fetching (keyPem : Str)
  | ended (result : Except Str AcmeOrder)

/-- An order and what it was begun with; `registered` are the challenges that it has registered. -/
structure RunningOrder where
  acme : AcmeConfig
  ca : CaReplies
  before : ChallengeStore
  registered : List Challenge
  pc : OrderPc

/-- The store that the front and the orders share, and the order that was begun last. -/
structure FrontHost where
  store : ChallengeStore
  order : Option RunningOrder

inductive FrontEvent
  | begin (acme : AcmeConfig) (ca : CaReplies)
  | advance

namespace FrontHost

def start (store : ChallengeStore) : FrontHost := ⟨store, none⟩

/-- The order's first step: its authorizations, or an error. -/
def placed (acme : AcmeConfig) (ca : CaReplies) : OrderPc :=
  match placeOrder acme ca with
  | .error e => .ended (.error e)
  | .ok authorizations => .authorizing authorizations

/-- The loop's next authorization: its challenge is registered, and the CA is told that it is ready. -/
def authorizeNext (store : ChallengeStore) (o : RunningOrder) :
    List (Except Str Authorization) → ChallengeStore × RunningOrder
  | [] => (store, { o with pc := .polling })
  | .error e :: _ => (store, { o with pc := .ended (.error e) })
  | .ok authz :: rest =>
    match authz.status with
    | .valid => (store, { o with pc := .authorizing rest })
    | .pending =>
      match authz.http01 with
      | none => (store, { o with pc := .ended (.error "no http-01 challenge offered".toList) })
      | some challenge =>
        (store.insert challenge.token challenge.keyAuthorization,
          { o with registered := o.registered ++ [challenge], pc := .readying challenge rest })
    | other => (store, { o with pc := .ended (.error ("unexpected authorization status: ".toList ++ other.debug)) })

/-- A step of the order that is running; none when it has ended. -/
def advance (store : ChallengeStore) (o : RunningOrder) : Option (ChallengeStore × RunningOrder) :=
  match o.pc with
  | .authorizing rest => some (authorizeNext store o rest)
  | .readying challenge rest =>
    match challenge.setReady with
    | .error e => some (store, { o with pc := .ended (.error e) })
    | .ok () => some (store, { o with pc := .authorizing rest })
  | .polling =>
    match o.ca.pollReady with
    | .error e => some (store, { o with pc := .ended (.error e) })
    | .ok status =>
      if status ≠ .ready then
        some (store, { o with pc := .ended (.error ("order did not become ready: ".toList ++ status.debug)) })
      else some (store, { o with pc := .finalizing })
  | .finalizing =>
    match o.ca.finalize with
    | .error e => some (store, { o with pc := .ended (.error e) })
    | .ok keyPem => some (store, { o with pc := .fetching keyPem })
  | .fetching keyPem =>
    match o.ca.pollCertificate with
    | .error e => some (store, { o with pc := .ended (.error e) })
    | .ok certPem => some (store, { o with pc := .ended (.ok ⟨o.acme.identifiers, certPem, keyPem⟩) })
  | .ended _ => none

def idle (h : FrontHost) : Bool :=
  match h.order.map RunningOrder.pc with
  | none => true
  | some (.ended _) => true
  | some _ => false

def next (h : FrontHost) : FrontEvent → Option FrontHost
  | .begin acme ca => if h.idle then some { h with order := some ⟨acme, ca, h.store, [], placed acme ca⟩ } else none
  | .advance => h.order.bind (fun o => (advance h.store o).map (fun r => ⟨r.1, some r.2⟩))

def Next (h : FrontHost) (e : FrontEvent) (t : FrontHost) : Prop := h.next e = some t

/-! ## What an order comes to -/

/-- What is left of an order, run at once. -/
def resume (acme : AcmeConfig) (ca : CaReplies) (store : ChallengeStore) : OrderPc →
    ChallengeStore × Except Str AcmeOrder
  | .authorizing rest =>
    match authorize store rest with
    | (store, .error e) => (store, .error e)
    | (store, .ok ()) => (store, completeOrder acme ca)
  | .readying challenge rest =>
    match challenge.setReady with
    | .error e => (store, .error e)
    | .ok () =>
      match authorize store rest with
      | (store, .error e) => (store, .error e)
      | (store, .ok ()) => (store, completeOrder acme ca)
  | .polling => (store, completeOrder acme ca)
  | .finalizing =>
    (store, ca.finalize.bind (fun keyPem =>
      ca.pollCertificate.map (fun certPem => ⟨acme.identifiers, certPem, keyPem⟩)))
  | .fetching keyPem => (store, ca.pollCertificate.map (fun certPem => ⟨acme.identifiers, certPem, keyPem⟩))
  | .ended result => (store, result)

/-- The challenges that an order has yet to register. -/
def toRegister : OrderPc → List Challenge
  | .authorizing rest => Zaphyl.registered rest
  | .readying challenge rest =>
    match challenge.setReady with
    | .error _ => []
    | .ok () => Zaphyl.registered rest
  | _ => []

/-- What an order has done and what is left of it make up the order that was begun. -/
structure Underway (store : ChallengeStore) (o : RunningOrder) : Prop where
  comes : resume o.acme o.ca store o.pc = runOrder o.acme o.ca o.before
  registers : o.registered ++ toRegister o.pc = orderChallenges o.acme o.ca
  stored : store = o.registered.foldl ChallengeStore.register o.before
  asked : ∀ c rest, o.pc = .readying c rest → c ∈ o.registered

theorem completeOrder_ready {acme : AcmeConfig} {ca : CaReplies} (h : ca.pollReady = .ok .ready) :
    completeOrder acme ca =
      ca.finalize.bind (fun keyPem => ca.pollCertificate.map (fun certPem => ⟨acme.identifiers, certPem, keyPem⟩)) := by
  unfold completeOrder
  rw [h]
  cases ca.finalize with
  | error e => rfl
  | ok keyPem => cases ca.pollCertificate <;> rfl

theorem completeOrder_unready {acme : AcmeConfig} {ca : CaReplies} {status : OrderStatus}
    (h : ca.pollReady = .ok status) (hstatus : status ≠ .ready) :
    completeOrder acme ca = .error ("order did not become ready: ".toList ++ status.debug) := by
  unfold completeOrder
  rw [h]
  cases status with
  | ready => exact absurd rfl hstatus
  | pending | processing | valid | invalid => rfl

theorem underway_placed (acme : AcmeConfig) (ca : CaReplies) (store : ChallengeStore) :
    Underway store ⟨acme, ca, store, [], placed acme ca⟩ := by
  have hpc : ∀ c rest, placed acme ca ≠ .readying c rest := by
    intro c rest
    unfold placed
    cases placeOrder acme ca <;> exact fun h => by cases h
  refine ⟨?_, ?_, rfl, fun c rest h => absurd h (hpc c rest)⟩
  · unfold placed runOrder
    cases placeOrder acme ca <;> rfl
  · unfold placed orderChallenges
    cases placeOrder acme ca <;> rfl

/-- A step that registers nothing, and after which the same is left to do. -/
theorem Underway.move {store : ChallengeStore} {o : RunningOrder} (h : Underway store o) {pc : OrderPc}
    (hcomes : resume o.acme o.ca store pc = resume o.acme o.ca store o.pc)
    (hregisters : toRegister pc = toRegister o.pc) (hpc : ∀ c rest, pc ≠ .readying c rest) :
    Underway store { o with pc := pc } where
  comes := hcomes.trans h.comes
  registers := (congrArg (o.registered ++ ·) hregisters).trans h.registers
  stored := h.stored
  asked := fun c rest hreadying => absurd hreadying (hpc c rest)

/-- **A step of an order leaves what it comes to.** -/
theorem underway_advance {store store' : ChallengeStore} {o o' : RunningOrder} (h : Underway store o)
    (hstep : advance store o = some (store', o')) : Underway store' o' := by
  obtain ⟨acme, ca, before, registered, pc⟩ := o
  unfold advance at hstep
  cases pc with
  | authorizing rest =>
    simp only [Option.some.injEq] at hstep
    cases rest with
    | nil =>
      cases hstep
      exact h.move rfl rfl (fun _ _ hpc => by cases hpc)
    | cons result rest =>
      cases result with
      | error e =>
        cases hstep
        exact h.move rfl rfl (fun _ _ hpc => by cases hpc)
      | ok authz =>
        obtain ⟨status, http01⟩ := authz
        cases status with
        | valid =>
          cases hstep
          exact h.move rfl rfl (fun _ _ hpc => by cases hpc)
        | pending =>
          cases http01 with
          | none =>
            cases hstep
            exact h.move rfl rfl (fun _ _ hpc => by cases hpc)
          | some challenge =>
            -- the one step that registers a challenge
            cases hstep
            obtain ⟨hcomes, hregisters, hstored, -⟩ := h
            obtain ⟨token, keyAuthorization, setReady⟩ := challenge
            refine ⟨?_, ?_, ?_, fun c rest hpc => ?_⟩
            · rw [← hcomes]
              cases setReady <;> rfl
            · rw [← hregisters, List.append_assoc]
              cases setReady <;> rfl
            · rw [List.foldl_concat, ← hstored]
              rfl
            · cases hpc
              exact List.mem_append_right _ List.mem_cons_self
        | invalid | revoked | expired | deactivated =>
          cases hstep
          exact h.move rfl rfl (fun _ _ hpc => by cases hpc)
  | readying challenge rest =>
    obtain ⟨token, keyAuthorization, setReady⟩ := challenge
    cases setReady with
    | error e | ok _ =>
      cases hstep
      exact h.move rfl rfl (fun _ _ hpc => by cases hpc)
  | polling =>
    simp only at hstep
    cases hready : ca.pollReady with
    | error e =>
      rw [hready] at hstep
      cases hstep
      refine h.move ?_ rfl (fun _ _ hpc => by cases hpc)
      show (store, _) = (store, completeOrder acme ca)
      rw [completeOrder, hready]
      rfl
    | ok status =>
      rw [hready] at hstep
      simp only at hstep
      by_cases hstatus : status = .ready
      · rw [if_neg (not_not_intro hstatus)] at hstep
        cases hstep
        refine h.move ?_ rfl (fun _ _ hpc => by cases hpc)
        exact congrArg (Prod.mk store) (completeOrder_ready (hready.trans (congrArg _ hstatus))).symm
      · rw [if_pos hstatus] at hstep
        cases hstep
        refine h.move ?_ rfl (fun _ _ hpc => by cases hpc)
        exact congrArg (Prod.mk store) (completeOrder_unready hready hstatus).symm
  | finalizing =>
    simp only at hstep
    have hleft : resume acme ca store .finalizing = (store, ca.finalize.bind (fun keyPem =>
      ca.pollCertificate.map (fun certPem => ⟨acme.identifiers, certPem, keyPem⟩))) := rfl
    cases hkey : ca.finalize with
    | error e | ok keyPem =>
      rw [hkey] at hstep hleft
      cases hstep
      exact h.move hleft.symm rfl (fun _ _ hpc => by cases hpc)
  | fetching keyPem =>
    simp only at hstep
    have hleft : resume acme ca store (.fetching keyPem) =
      (store, ca.pollCertificate.map (fun certPem => ⟨acme.identifiers, certPem, keyPem⟩)) := rfl
    cases hcert : ca.pollCertificate with
    | error e | ok certPem =>
      rw [hcert] at hstep hleft
      cases hstep
      exact h.move hleft.symm rfl (fun _ _ hpc => by cases hpc)
  | ended result => cases hstep

theorem underway_run {store : ChallengeStore} {es : List FrontEvent} {h : FrontHost}
    (hrun : Runs.Run Next (start store) es h) : ∀ o, h.order = some o → Underway h.store o := by
  refine hrun.invariant (P := fun h => ∀ o, h.order = some o → Underway h.store o) (fun h e t hh hstep => ?_)
    (fun o ho => by cases ho)
  unfold Next next at hstep
  cases e with
  | begin acme ca =>
    simp only at hstep
    split at hstep
    · cases hstep
      intro o ho
      rw [← Option.some.inj ho]
      exact underway_placed acme ca h.store
    · cases hstep
  | advance =>
    obtain ⟨o, ho, hrest⟩ := Option.bind_eq_some_iff.1 hstep
    obtain ⟨⟨store', o'⟩, hadvance, rfl⟩ := Option.map_eq_some_iff.1 hrest
    intro p hp
    rw [← Option.some.inj hp]
    exact underway_advance (hh o ho) hadvance

/-! ## Every order ends -/

/-- The steps that an order has left, at most. -/
def left : OrderPc → Nat
  | .authorizing rest => 2 * rest.length + 4
  | .readying _ rest => 2 * rest.length + 5
  | .polling => 3
  | .finalizing => 2
  | .fetching _ => 1
  | .ended _ => 0

theorem advance_left (store : ChallengeStore) {o : RunningOrder} (h : ∀ result, o.pc ≠ .ended result) :
    ∃ store' o', advance store o = some (store', o') ∧ left o'.pc < left o.pc ∧
      runOrder o'.acme o'.ca o'.before = runOrder o.acme o.ca o.before := by
  obtain ⟨acme, ca, before, registered, pc⟩ := o
  cases pc with
  | authorizing rest =>
    refine ⟨_, _, rfl, ?_⟩
    cases rest with
    | nil => exact ⟨Nat.lt_succ_self 3, rfl⟩
    | cons result rest =>
      have hshorter : 2 * rest.length + 5 < 2 * (result :: rest).length + 4 := by
        rw [List.length_cons]
        omega
      cases result with
      | error e => exact ⟨Nat.succ_pos _, rfl⟩
      | ok authz =>
        obtain ⟨status, http01⟩ := authz
        cases status with
        | valid => exact ⟨Nat.lt_of_succ_lt hshorter, rfl⟩
        | pending =>
          cases http01 with
          | none => exact ⟨Nat.succ_pos _, rfl⟩
          | some challenge => exact ⟨hshorter, rfl⟩
        | invalid | revoked | expired | deactivated => exact ⟨Nat.succ_pos _, rfl⟩
  | readying challenge rest =>
    obtain ⟨token, keyAuthorization, setReady⟩ := challenge
    cases setReady with
    | error e => exact ⟨_, _, rfl, Nat.succ_pos _, rfl⟩
    | ok _ => exact ⟨_, _, rfl, Nat.lt_succ_self _, rfl⟩
  | polling =>
    unfold advance
    simp only
    cases ca.pollReady with
    | error e => exact ⟨_, _, rfl, Nat.succ_pos 2, rfl⟩
    | ok status =>
      cases status with
      | ready => exact ⟨_, _, rfl, Nat.lt_succ_self 2, rfl⟩
      | pending | processing | valid | invalid => exact ⟨_, _, rfl, Nat.succ_pos 2, rfl⟩
  | finalizing =>
    unfold advance
    simp only
    cases ca.finalize with
    | error e => exact ⟨_, _, rfl, Nat.succ_pos 1, rfl⟩
    | ok keyPem => exact ⟨_, _, rfl, Nat.lt_succ_self 1, rfl⟩
  | fetching keyPem =>
    unfold advance
    simp only
    cases ca.pollCertificate with
    | error e | ok certPem => exact ⟨_, _, rfl, Nat.lt_succ_self 0, rfl⟩
  | ended result => exact absurd rfl (h result)

/-- **An order that is let run ends as `runOrder` says.** -/
theorem ends_of_underway {h : FrontHost} {o : RunningOrder} (ho : h.order = some o) (hunder : Underway h.store o) :
    ∃ k t p, Runs.Run Next h (List.replicate k .advance) t ∧ t.order = some p ∧
      p.pc = .ended (runOrder o.acme o.ca o.before).2 ∧ t.store = (runOrder o.acme o.ca o.before).1 := by
  -- On the steps that are left.
  induction hn : left o.pc using Nat.strong_induction_on generalizing h o with
  | _ n ih =>
    by_cases hended : ∃ result, o.pc = .ended result
    · obtain ⟨result, hpc⟩ := hended
      have hcomes := hunder.comes
      rw [hpc] at hcomes
      rw [← hcomes]
      exact ⟨0, h, o, .nil h, ho, hpc, rfl⟩
    · obtain ⟨store', o', hstep, hless, hsame⟩ := advance_left h.store (fun result hpc => hended ⟨result, hpc⟩)
      have hnext : Next h .advance ⟨store', some o'⟩ := by
        unfold Next next
        rw [ho]
        simp only [Option.bind_some, hstep, Option.map_some]
      obtain ⟨k, t, p, hrun, hp, hpc, hstore⟩ :=
        ih _ (hn ▸ hless) (h := ⟨store', some o'⟩) rfl (underway_advance hunder hstep) rfl
      rw [hsame] at hpc hstore
      exact ⟨k + 1, t, p, .cons hnext hrun, hp, hpc, hstore⟩

/-! ## What the front serves meanwhile -/

/-- A token keeps its key authorization while it is registered with no other. -/
theorem register_same {challenges : List Challenge} {token keyAuthorization : Str}
    (h : ∀ d ∈ challenges, d.token = token → d.keyAuthorization = keyAuthorization) {store : ChallengeStore}
    (hstore : store.tokens token = some keyAuthorization) :
    (challenges.foldl ChallengeStore.register store).tokens token = some keyAuthorization := by
  induction challenges generalizing store with
  | nil => exact hstore
  | cons d challenges ih =>
    refine ih (fun c hc => h c (List.mem_cons_of_mem d hc)) ?_
    show Function.update store.tokens d.token (some d.keyAuthorization) token = some keyAuthorization
    by_cases hsame : d.token = token
    · rw [hsame, Function.update_self, h d List.mem_cons_self hsame]
    · rw [Function.update_of_ne (Ne.symm hsame)]
      exact hstore

theorem register_mem {challenges : List Challenge} {c : Challenge} (hc : c ∈ challenges)
    (h : ∀ d ∈ challenges, d.token = c.token → d.keyAuthorization = c.keyAuthorization) (store : ChallengeStore) :
    (challenges.foldl ChallengeStore.register store).tokens c.token = some c.keyAuthorization := by
  induction challenges generalizing store with
  | nil => cases hc
  | cons d challenges ih =>
    have hrest : ∀ d ∈ challenges, d.token = c.token → d.keyAuthorization = c.keyAuthorization :=
      fun e he => h e (List.mem_cons_of_mem d he)
    rcases List.mem_cons.1 hc with rfl | hc
    · refine register_same hrest ?_
      show Function.update store.tokens c.token (some c.keyAuthorization) c.token = _
      rw [Function.update_self]
    · exact ih hc hrest _

/-- A request for a token that is served is answered with its key authorization. -/
theorem respond_served {store : ChallengeStore} {token keyAuthorization : Str}
    (hstore : store.tokens token = some keyAuthorization) (hne : token ≠ []) (hflat : '/' ∉ token) {req : Request}
    (hpath : req.uri.path = "/.well-known/acme-challenge/".toList ++ token) (behavior : NonChallenge) :
    respond req store behavior =
      some ⟨⟨200, (HeaderMap.mk []).append HeaderName.contentType textPlain⟩, Utf8.encode keyAuthorization⟩ := by
  have hserved : store.responseFor req.uri.path = some keyAuthorization := by
    unfold ChallengeStore.responseFor
    rw [hpath, Text.dropPrefix?_eq_some.2 rfl]
    have htoken : (token = [] || token.contains '/') = false := by
      simp [hne, hflat]
    simp only [htoken, Bool.false_eq_true, if_false]
    exact hstore
  unfold respond
  rw [hserved]

/-- What the front does for an order at a point of it, and what the order comes to. -/
structure Serves (behavior : NonChallenge) (h : FrontHost) (o : RunningOrder) : Prop where
  registered : o.registered <+: orderChallenges o.acme o.ca
  asked : ∀ c rest, o.pc = .readying c rest → c ∈ o.registered
  polled : o.pc = .polling → o.registered = orderChallenges o.acme o.ca
  served : ∀ c ∈ o.registered, c.token ≠ [] → '/' ∉ c.token → ∀ req : Request,
    req.uri.path = "/.well-known/acme-challenge/".toList ++ c.token → respond req h.store behavior =
      some ⟨⟨200, (HeaderMap.mk []).append HeaderName.contentType textPlain⟩, Utf8.encode c.keyAuthorization⟩
  comes : ∀ result, o.pc = .ended result → runOrder o.acme o.ca o.before = (h.store, result)
  ends : ∃ k t p, Runs.Run Next h (List.replicate k .advance) t ∧ t.order = some p ∧
    p.pc = .ended (runOrder o.acme o.ca o.before).2 ∧ t.store = (runOrder o.acme o.ca o.before).1

/-- **The front serves an order's challenges from before the CA is told of each**, at every point of every run: those
that are registered are answered with their key authorizations, the one whose validation is asked for is among them and
all of them are when the order is polled; and an order that has ended has come to what `runOrder` says, as one that is
let run will.  The CA gives a token one key authorization. -/
theorem challenges_served_in_run {store : ChallengeStore} {es : List FrontEvent} {h : FrontHost}
    (hrun : Runs.Run Next (start store) es h) {o : RunningOrder} (ho : h.order = some o)
    (hkeys : ∀ c ∈ orderChallenges o.acme o.ca, ∀ d ∈ orderChallenges o.acme o.ca,
      d.token = c.token → d.keyAuthorization = c.keyAuthorization) (behavior : NonChallenge) :
    Serves behavior h o := by
  have hunder := underway_run hrun o ho
  have hregistered : o.registered <+: orderChallenges o.acme o.ca := ⟨_, hunder.registers⟩
  refine ⟨hregistered, hunder.asked, fun hpc => ?_, fun c hc hne hflat req hpath => ?_, fun result hpc => ?_,
    ends_of_underway ho hunder⟩
  · have hall := hunder.registers
    rw [hpc] at hall
    exact (List.append_nil _).symm.trans hall
  · refine respond_served ?_ hne hflat hpath behavior
    rw [hunder.stored]
    exact register_mem hc (fun d hd => hkeys c (hregistered.subset hc) d (hregistered.subset hd)) _
  · have hcomes := hunder.comes
    rw [hpc] at hcomes
    exact hcomes.symm

def issuingChallenge : Challenge := ⟨"token".toList, "token.thumbprint".toList, .ok ()⟩

/-- An order whose challenge is registered, and about to be asked for. -/
def issuing : FrontHost :=
  ⟨ChallengeStore.new.register issuingChallenge,
    some ⟨AcmeHost.oneSite, AcmeHost.issuingCa, ChallengeStore.new, [issuingChallenge], .readying issuingChallenge []⟩⟩

theorem issuing_run :
    Runs.Run Next (start ChallengeStore.new) [.begin AcmeHost.oneSite AcmeHost.issuingCa, .advance] issuing :=
  .cons rfl (.cons rfl (.nil _))

/-- The request by which the CA validates the challenge. -/
def validation : Request :=
  ⟨"GET".toList, ⟨none, some ("/.well-known/acme-challenge/".toList ++ "token".toList)⟩, ⟨[]⟩⟩

/-- The challenge is answered before the CA is told of it. -/
theorem issuing_validated :
    respond validation issuing.store (.redirectToHttps 443) =
      some ⟨⟨200, (HeaderMap.mk []).append HeaderName.contentType textPlain⟩,
        Utf8.encode "token.thumbprint".toList⟩ := by
  have hserves := challenges_served_in_run issuing_run rfl
    (fun c hc d hd _ => by rw [List.mem_singleton.1 hc, List.mem_singleton.1 hd]) (.redirectToHttps 443)
  exact hserves.served issuingChallenge List.mem_cons_self (by decide) (by decide) validation (by decide)

end FrontHost

end HttpFront

end Zaphyl
