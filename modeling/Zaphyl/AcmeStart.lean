import Zaphyl.Acme
import Zaphyl.Runs
import Zaphyl.Sites
/-!
# AcmeStart — what a start takes from the cache

A start that finds both files asks neither whom the certificate is for nor when it expires.  So in any run of starts and
renewals the certificate covers the started configuration exactly when the configuration that last wrote it listed every
domain and it is not due (`covers_after_start_iff`).
-/
namespace Zaphyl

/-- A host with one cache directory, and the server running on it. -/
structure AcmeHost extends AcmeState where
  runner : Option AcmeRunner

inductive AcmeEvent
  | start (config : AcmeConfig) (dir : Except Str Unit) (env : ObtainEnv)
  | wake (now : SystemTime) (env : ObtainEnv)
  | removeCert
  | removeKey

namespace AcmeHost

def empty : AcmeHost := ⟨⟨ChallengeStore.new, none, none⟩, none⟩

/-- `AcmeRunner::start` in a new process, which holds no challenges. -/
def startRunner (h : AcmeHost) (config : AcmeConfig) (dir : Except Str Unit) (env : ObtainEnv) :
    AcmeState × Except Str AcmeRunner :=
  AcmeRunner.start config dir env { h.toAcmeState with store := ChallengeStore.new }

section

variable (certNotAfterUnix : Str → Option Int)

def step (h : AcmeHost) : AcmeEvent → AcmeHost
  | .start config dir env => ⟨(h.startRunner config dir env).1, (h.startRunner config dir env).2.toOption⟩
  | .wake now env =>
    match h.runner with
    | some r => { h with toAcmeState := r.renew certNotAfterUnix now env h.toAcmeState }
    | none => h
  | .removeCert => { h with cert := none }
  | .removeKey => { h with key := none }

def Next (h : AcmeHost) (e : AcmeEvent) (h' : AcmeHost) : Prop := h' = step certNotAfterUnix h e

/-- **The certificate file covers a configuration**: it holds what an order for all its domains issued, and that is not
due. -/
def Covers (h : AcmeHost) (config : AcmeConfig) (now : SystemTime) : Prop :=
  ∃ f, h.cert = some f ∧ f.content = Utf8.encode f.order.certPem ∧
    (∀ d ∈ config.domains, Identifier.dns d ∈ f.order.identifiers) ∧
    needsRenewal certNotAfterUnix f.order.certPem now.unixSecs config.window = false

/-- The cache serves a start: of the two files, the certificate was written whole, for a configuration that listed every
domain, and is not due; where one is missing, what the CA issues is not due. -/
def CacheServes (h : AcmeHost) (config : AcmeConfig) (env : ObtainEnv) (now : SystemTime) : Prop :=
  match h.cert, h.key with
  | some f, some _ =>
    f.content = Utf8.encode f.order.certPem ∧ (∀ d ∈ config.domains, d ∈ f.acme.domains) ∧
      needsRenewal certNotAfterUnix f.order.certPem now.unixSecs config.window = false
  | _, _ =>
    ∀ certPem, env.ca.pollCertificate = .ok certPem →
      needsRenewal certNotAfterUnix certPem now.unixSecs config.window = false

end

/-! ## Runs -/

variable {certNotAfterUnix : Str → Option Int}

/-- The certificate file was written by an order for the domains of the configuration that placed it. -/
def Ordered (h : AcmeHost) : Prop := ∀ f, h.cert = some f → f.order.identifiers = f.acme.identifiers

theorem ordered_obtain {acme : AcmeConfig} {env : ObtainEnv} {s : AcmeState}
    (hs : ∀ f, s.cert = some f → f.order.identifiers = f.acme.identifiers) (f : CacheFile)
    (hf : (obtain acme env s).1.cert = some f) : f.order.identifiers = f.acme.identifiers := by
  rcases obtain_cert acme env s with hsame | ⟨g, hg, hacme, hidentifiers⟩
  · exact hs f (hsame ▸ hf)
  · have hfg : g = f := Option.some.inj (hg ▸ hf)
    rw [← hfg, hacme, hidentifiers]

/-- A start leaves the certificate file, or what obtaining makes of it. -/
theorem startRunner_cert (h : AcmeHost) (config : AcmeConfig) (dir : Except Str Unit) (env : ObtainEnv) :
    (h.startRunner config dir env).1.cert = h.cert ∨
      (h.startRunner config dir env).1 = (obtain config env { h.toAcmeState with store := ChallengeStore.new }).1 := by
  unfold startRunner AcmeRunner.start
  split
  · exact Or.inl rfl
  · split
    · exact Or.inl rfl
    · split
      · rename_i s e hobtain
        exact Or.inr (by rw [hobtain])
      · rename_i s hobtain
        exact Or.inr (by rw [hobtain])

theorem Ordered.step {h : AcmeHost} (ho : h.Ordered) (e : AcmeEvent) : (h.step certNotAfterUnix e).Ordered := by
  intro f hf
  cases e with
  | start config dir env =>
    rcases h.startRunner_cert config dir env with hsame | hobtain
    · exact ho f (hsame ▸ hf)
    · have hcert : (h.startRunner config dir env).1.cert = some f := hf
      rw [hobtain] at hcert
      exact ordered_obtain (s := { h.toAcmeState with store := ChallengeStore.new }) ho f hcert
  | wake now env =>
    simp only [AcmeHost.step] at hf
    split at hf
    · unfold AcmeRunner.renew at hf
      split at hf
      · exact ordered_obtain ho f hf
      · exact ho f hf
    · exact ho f hf
  | removeCert => cases hf
  | removeKey => exact ho f hf

/-- A start that returns found both files, or obtained them. -/
theorem startRunner_eq_ok {h : AcmeHost} {config : AcmeConfig} {dir : Except Str Unit} {env : ObtainEnv} {r : AcmeRunner}
    (hok : (h.startRunner config dir env).2 = .ok r) :
    r.config = config ∧
      ((h.cert.isSome ∧ h.key.isSome) ∧ (h.startRunner config dir env).1.cert = h.cert ∨
        ¬ (h.cert.isSome ∧ h.key.isSome) ∧ ∃ order : AcmeOrder, order.identifiers = config.identifiers ∧
          env.ca.pollCertificate = .ok order.certPem ∧
          (h.startRunner config dir env).1.cert = some ⟨Utf8.encode order.certPem, order, config⟩) := by
  unfold startRunner AcmeRunner.start at hok ⊢
  cases dir with
  | error e => cases hok
  | ok _ =>
    simp only at hok ⊢
    by_cases hfiles : (h.cert.isSome && h.key.isSome) = true
    · rw [if_pos hfiles] at hok ⊢
      cases hok
      exact ⟨rfl, Or.inl ⟨by simpa using hfiles, rfl⟩⟩
    · rw [if_neg hfiles] at hok ⊢
      split at hok
      · cases hok
      · rename_i s hobtain
        cases hok
        obtain ⟨order, hidentifiers, hcert, hwritten, -⟩ := obtain_eq_ok hobtain
        exact ⟨rfl, Or.inr ⟨by simpa using hfiles, order, hidentifiers, hcert, hwritten⟩⟩

theorem ordered_of_run {es : List AcmeEvent} {h : AcmeHost} (hrun : Runs.Run (Next certNotAfterUnix) empty es h) :
    h.Ordered := by
  refine hrun.invariant (P := Ordered) (fun s e t hs ht => ?_) (fun f hf => nomatch hf)
  rw [ht]
  exact hs.step e

theorem mem_identifiers {acme : AcmeConfig} {d : Str} : Identifier.dns d ∈ acme.identifiers ↔ d ∈ acme.domains := by
  simp [AcmeConfig.identifiers]

/-- **After any run, a start that returns leaves a certificate that covers its configuration exactly when the cache serves
it.** -/
theorem covers_after_start_iff {es : List AcmeEvent} {h : AcmeHost}
    (hrun : Runs.Run (Next certNotAfterUnix) empty es h) {config : AcmeConfig} {dir : Except Str Unit} {env : ObtainEnv}
    {r : AcmeRunner} (hok : (h.startRunner config dir env).2 = .ok r) (now : SystemTime) :
    (h.step certNotAfterUnix (.start config dir env)).Covers certNotAfterUnix config now ↔
      h.CacheServes certNotAfterUnix config env now := by
  obtain ⟨-, ⟨hfiles, hsame⟩ | ⟨hmissing, order, hidentifiers, hissued, hwritten⟩⟩ := startRunner_eq_ok hok
  · obtain ⟨f, hf⟩ := Option.isSome_iff_exists.1 hfiles.1
    obtain ⟨g, hg⟩ := Option.isSome_iff_exists.1 hfiles.2
    have hcert : (h.step certNotAfterUnix (.start config dir env)).cert = some f := hsame.trans hf
    have hdomains : ∀ d, Identifier.dns d ∈ f.order.identifiers ↔ d ∈ f.acme.domains := by
      intro d
      rw [ordered_of_run hrun f hf, mem_identifiers]
    simp only [Covers, CacheServes, hcert, hf, hg, Option.some.injEq, exists_eq_left', hdomains]
  · have hcert : (h.step certNotAfterUnix (.start config dir env)).cert =
        some ⟨Utf8.encode order.certPem, order, config⟩ := hwritten
    have hdomains : ∀ d ∈ config.domains, Identifier.dns d ∈ order.identifiers := by
      intro d hd
      rw [hidentifiers]
      exact mem_identifiers.2 hd
    have hserves : h.CacheServes certNotAfterUnix config env now ↔
        needsRenewal certNotAfterUnix order.certPem now.unixSecs config.window = false := by
      unfold CacheServes
      split
      · rename_i f g hf hg
        exact absurd ⟨by rw [hf]; rfl, by rw [hg]; rfl⟩ hmissing
      · constructor
        · exact fun hfresh => hfresh _ hissued
        · rintro hfresh certPem hcertPem
          rw [hissued] at hcertPem
          rwa [← Except.ok.inj hcertPem]
    rw [hserves]
    constructor
    · rintro ⟨f, hf, -, -, hfresh⟩
      rw [hcert] at hf
      rwa [← Option.some.inj hf] at hfresh
    · exact fun hfresh => ⟨_, hcert, rfl, hdomains, hfresh⟩

/-! ## A site added between two starts -/

/-- An X.509 certificate that expires 90 days after it was issued. -/
@[irreducible] def issuedPem : Str :=
  ("-----BEGIN CERTIFICATE-----\n" ++
    "MIHIMHwCAQEwBQYDK2VwMBExDzANBgNVBAMMBmEudGVzdDAeFw0yNjExMTkwMzAw\n" ++
    "MTVaFw0yNzAyMTcwMzAwMTVaMBExDzANBgNVBAMMBmEudGVzdDAqMAUGAytlcAMh\n" ++
    "AFXJLw7EHVhA317Isz4QC2uWuzTlN96hb/z3SKIvKliiMAUGAytlcANBAJDPdoWo\n" ++
    "PrGpYy2vElFqzVc1RqcSQSC0mf4rYLhKz2eCar/VuKfMc3TMos8nUqTFLIwiRFmG\n" ++
    "Q1gifeppboPg+QE=\n" ++
    "-----END CERTIFICATE-----\n").toList

def issuedNotAfter (certPem : Str) : Option Int := if certPem = issuedPem then some 1802833215 else none

def issuedAt : SystemTime := ⟨1795057215 * nanosPerSec, by decide, by decide⟩

def yearLater : SystemTime := ⟨(1795057215 + 365 * 86400) * nanosPerSec, by decide, by decide⟩

def issuingCa : CaReplies where
  client := .ok ()
  account _ := .ok ()
  newOrder ids := .ok (ids.map (fun _ => .ok ⟨.pending, some ⟨"token".toList, "token.thumbprint".toList, .ok ()⟩⟩))
  pollReady := .ok .ready
  finalize := .ok "key".toList
  pollCertificate := .ok issuedPem

def issuingEnv : ObtainEnv := ⟨.ok (), issuingCa, .done, .done⟩

def oneSite : AcmeConfig := ⟨["a.test".toList], "admin@a.test".toList, 30, 43200⟩

def siteAdded : AcmeConfig := oneSite.addDomains ["b.test".toList]

def onceStarted : AcmeHost := empty.step issuedNotAfter (.start oneSite (.ok ()) issuingEnv)

theorem onceStarted_run : Runs.Run (Next issuedNotAfter) empty [.start oneSite (.ok ()) issuingEnv] onceStarted :=
  .cons rfl (.nil _)

theorem onceStarted_cert :
    onceStarted.cert = some ⟨Utf8.encode issuedPem, ⟨[.dns "a.test".toList], issuedPem, "key".toList⟩, oneSite⟩ := rfl

theorem issuedNotAfter_issuedPem : issuedNotAfter issuedPem = some 1802833215 := if_pos rfl

theorem issuedPem_due (nowUnix window : Int) :
    needsRenewal issuedNotAfter issuedPem nowUnix window = decide (saturateI64 (1802833215 - nowUnix) < window) := by
  rw [needsRenewal, issuedNotAfter_issuedPem]

/-- A restart with the configuration that obtained the certificate finds it covered. -/
theorem restart_covered :
    (onceStarted.startRunner oneSite (.ok ()) issuingEnv).2 = .ok ⟨oneSite⟩ ∧
      (onceStarted.step issuedNotAfter (.start oneSite (.ok ()) issuingEnv)).Covers issuedNotAfter oneSite issuedAt := by
  refine ⟨rfl, (covers_after_start_iff onceStarted_run (r := ⟨oneSite⟩) rfl issuedAt).2 ?_⟩
  show _ ∧ _ ∧ _
  refine ⟨rfl, fun d hd => hd, ?_⟩
  rw [issuedPem_due]
  decide

/-- **A start returns with a certificate that lacks an added site, and with one that has expired.** -/
theorem added_site_uncovered :
    Runs.Run (Next issuedNotAfter) empty [.start oneSite (.ok ()) issuingEnv] onceStarted ∧
      (onceStarted.startRunner siteAdded (.ok ()) issuingEnv).2 = .ok ⟨siteAdded⟩ ∧
      siteAdded.domains = ["a.test".toList, "b.test".toList] ∧
      (onceStarted.step issuedNotAfter (.start siteAdded (.ok ()) issuingEnv)).cert.map (fun f => f.order.identifiers) =
        some [Identifier.dns "a.test".toList] ∧
      ¬ (onceStarted.step issuedNotAfter (.start siteAdded (.ok ()) issuingEnv)).Covers issuedNotAfter siteAdded issuedAt ∧
      (onceStarted.startRunner oneSite (.ok ()) issuingEnv).2 = .ok ⟨oneSite⟩ ∧
      needsRenewal issuedNotAfter issuedPem yearLater.unixSecs oneSite.window = true ∧
      ¬ (onceStarted.step issuedNotAfter (.start oneSite (.ok ()) issuingEnv)).Covers issuedNotAfter oneSite yearLater := by
  have hdue : needsRenewal issuedNotAfter issuedPem yearLater.unixSecs oneSite.window = true := by
    rw [issuedPem_due]
    decide
  refine ⟨onceStarted_run, rfl, by decide, rfl, ?_, rfl, hdue, ?_⟩
  · rintro ⟨f, hf, -, hdomains, -⟩
    have hkept : (onceStarted.step issuedNotAfter (.start siteAdded (.ok ()) issuingEnv)).cert = onceStarted.cert := rfl
    rw [hkept, onceStarted_cert, Option.some.injEq] at hf
    subst hf
    exact absurd (hdomains "b.test".toList (by decide)) (by decide)
  · rintro ⟨f, hf, -, -, hfresh⟩
    have hkept : (onceStarted.step issuedNotAfter (.start oneSite (.ok ()) issuingEnv)).cert = onceStarted.cert := rfl
    rw [hkept, onceStarted_cert, Option.some.injEq] at hf
    subst hf
    rw [hdue] at hfresh
    cases hfresh

end AcmeHost
end Zaphyl
