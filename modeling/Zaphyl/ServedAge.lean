import Zaphyl.CacheView
import Zaphyl.Freshness
/-!
# ServedAge — how old a response from the cache may be

An entry goes from an origin's answer into the cache, over a file and back into memory, into the hand of a revalidation
and back again with a new expiry.  Whatever way it took, a lookup that finds it fresh finds it within its own lifetime
of the clock reading of an answer that sent or confirmed it (`served_within_lifetime`).
-/
namespace Zaphyl

open ResponseCache (judge)

/-- A task and the answer that the origin gave it. -/
structure Exchange where
  task : ProxyTask
  head : ResponseHead
  chunks : List Bytes
  now : SystemTime

namespace ProxyConfig

variable (cfg : ProxyConfig)

/-- The exchange that an event completes. -/
def exchange (s : ProxyState) : ProxyEvent → Option Exchange
  | .answer i head chunks now _ => s.tasks[i]?.map (fun task => ⟨task, head, chunks, now⟩)
  | .request _ _ _ _ => none
  | .fail _ => none
  | .restart _ => none

/-- The exchanges of a run, in their order. -/
def exchanges : ProxyState → List ProxyEvent → List Exchange
  | _, [] => []
  | s, e :: es => (exchange s e).toList ++ exchanges (cfg.step s e) es

end ProxyConfig

/-- A step whose entry fits a file, where there is a disk tier. -/
def ProxyState.Fitting (cfg : ProxyConfig) (s : ProxyState) (e : ProxyEvent) : Prop :=
  ∀ x p, ProxyConfig.exchange s e = some x → (cfg.outcome x.head x.chunks x.now x.task).1 = some p →
    s.cache.disk ≠ none → Codec.Fits p.key p.response

namespace Exchange

variable (cfg : ProxyConfig)

/-- The answer sends the response under the key, or confirms it with a 304. -/
def Gives (x : Exchange) (key : Str) (r : CachedResponse) : Prop :=
  x.task.key = key ∧ ∃ j, cfg.candidate x.head x.chunks x.task = some (j, r)

/-- The response is the origin's 200 under the key. -/
def Sends (x : Exchange) (key : Str) (r : CachedResponse) : Prop := x.Gives cfg key r ∧ x.head.status = 200

/-- The clock reading that a lifetime is added to. -/
def base (x : Exchange) : SystemTime := x.task.base x.now

def Puts (x : Exchange) (p : Store) : Prop := (cfg.outcome x.head x.chunks x.now x.task).1 = some p

end Exchange

/-- The lifetime of a response: the age its own `Cache-Control` declares, or a minute for one whose stored headers give
it none. -/
def CachedResponse.Lifetime (r : CachedResponse) (n : Nat) : Prop :=
  DeclaresAge (r.header "cache-control".toList) n ∨ storedTtl r = none ∧ n = 60

/-! ## What an answer puts -/

variable {cfg : ProxyConfig}

theorem storedTtl_lifetime {r : CachedResponse} {n : Nat} (h : storedTtl r = some n) : r.Lifetime n := by
  rw [← Judged.ttl_ofStored] at h
  exact Or.inl ((Judged.ttl_eq_some_iff _ _).1 h).2.1

theorem fetchedHead_status (cfg : ProxyConfig) (listener : Listener) (req : Request) (route : Route)
    (head : ResponseHead) : (cfg.fetchedHead listener req route head).status = head.status := by
  cases listener with
  | http1 => exact cfg.compressor.status req head
  | http3 => rfl

/-- A response that is stored for its lifetime declares it in its stored headers. -/
theorem upstreamTtl_lifetime {head : ResponseHead} {n : Nat} (h : upstreamTtl head = some n) (status : UInt16)
    (body : Bytes) : (CachedResponse.mk status (storedHeaders head.headers) body).Lifetime n := by
  rw [← Judged.ttl_ofHead] at h
  obtain ⟨-, hage, -⟩ := (Judged.ttl_eq_some_iff _ _).1 h
  have hvalue := hage
  obtain ⟨value, -, -, -, hcc, -⟩ := hvalue
  left
  have hstored : (CachedResponse.mk status (storedHeaders head.headers) body).header "cache-control".toList =
      some value := header_storedHeaders (n := HeaderName.cacheControl) (by decide) hcc status body
  rw [hstored]
  rwa [show (Judged.ofHead head).cacheControl = some value from hcc] at hage

theorem storeUntil_expiry {key : Str} {base : SystemTime} {ttl : Duration} {r : CachedResponse} {p : Store}
    (h : ProxyConfig.storeUntil key base ttl r = some p) : base.add ttl = .ok p.expiry := by
  unfold ProxyConfig.storeUntil at h
  split at h
  · rename_i expiry hadd
    cases h
    exact hadd
  · cases h

/-- **An answer puts what it sends or confirms, for its lifetime from the task's clock reading.** -/
theorem Exchange.Puts.gives {x : Exchange} {p : Store} (h : x.Puts cfg p) : x.Gives cfg p.key p.response ∧
    ∃ n, p.response.Lifetime n ∧ x.base.add n = .ok p.expiry := by
  obtain ⟨task, head, chunks, now⟩ := x
  have hkey : p.key = task.key := key_of_outcome h
  cases task with
  | revalidating listener req key hit started =>
    have hbase : ∀ {ttl r}, ProxyConfig.storeUntil key (ProxyTask.base now (.revalidating listener req key hit started))
        ttl r = some p → p.response = r ∧
          (ProxyTask.base now (.revalidating listener req key hit started)).add ttl = .ok p.expiry :=
      fun hstore => ⟨(storeUntil_eq_some hstore).2, storeUntil_expiry hstore⟩
    have houtcome := h
    simp only [Exchange.Puts, ProxyConfig.outcome] at houtcome
    cases hreval : revalidate cfg.maxBody head chunks with
    | notModified =>
      rw [hreval] at houtcome
      obtain ⟨hresponse, hadd⟩ := hbase (by cases listener <;> exact houtcome)
      refine ⟨⟨hkey.symm, Judged.ofStored hit, ?_⟩, _, ?_, hadd⟩
      · simp only [ProxyConfig.candidate, hreval, hresponse]
      · rw [hresponse]
        cases httl : storedTtl hit with
        | some n => exact storedTtl_lifetime httl
        | none => exact Or.inr ⟨httl, rfl⟩
    | modified fresh =>
      rw [hreval] at houtcome
      obtain ⟨ttl, httl, houtcome⟩ := Option.bind_eq_some_iff.1 houtcome
      obtain ⟨hresponse, hadd⟩ := hbase (by cases listener <;> exact houtcome)
      refine ⟨⟨hkey.symm, Judged.ofStored fresh, ?_⟩, ttl, ?_, hadd⟩
      · simp only [ProxyConfig.candidate, hreval, hresponse]
      · rw [hresponse]
        exact storedTtl_lifetime httl
    | failed =>
      rw [hreval] at houtcome
      cases houtcome
  | fetching listener req key route =>
    obtain ⟨ttl, httl, houtcome⟩ := Option.bind_eq_some_iff.1 h
    obtain ⟨body, hbody, hstore⟩ := Option.bind_eq_some_iff.1 houtcome
    have hresponse := (storeUntil_eq_some hstore).2
    refine ⟨⟨hkey.symm, Judged.ofHead (cfg.fetchedHead listener req route head), ?_⟩, ttl, ?_, storeUntil_expiry hstore⟩
    · simp only [ProxyConfig.candidate, hbody, Option.map_some, hresponse]
    · rw [hresponse]
      exact upstreamTtl_lifetime httl _ _

/-- What is put was sent with it, or was in the hand of the revalidation. -/
theorem Exchange.Puts.sends_or_hit {x : Exchange} {p : Store} (h : x.Puts cfg p) :
    x.Sends cfg p.key p.response ∨ ∃ listener req started,
      x.task = .revalidating listener req p.key p.response started := by
  have hgives := h.gives.1
  obtain ⟨task, head, chunks, now⟩ := x
  have hkey : p.key = task.key := key_of_outcome h
  cases task with
  | revalidating listener req key hit started =>
    obtain ⟨-, j, hcandidate⟩ := hgives
    simp only [ProxyConfig.candidate] at hcandidate
    cases hreval : revalidate cfg.maxBody head chunks with
    | notModified =>
      rw [hreval, Option.some.injEq, Prod.mk.injEq] at hcandidate
      exact Or.inr ⟨listener, req, started, by rw [← hcandidate.2, hkey]; rfl⟩
    | modified fresh => exact Or.inl ⟨h.gives.1, (revalidate_eq_modified hreval).1⟩
    | failed =>
      rw [hreval] at hcandidate
      cases hcandidate
  | fetching listener req key route =>
    obtain ⟨ttl, httl, -⟩ := Option.bind_eq_some_iff.1 h
    have hstatus : (cfg.fetchedHead listener req route head).status = 200 :=
      (of_upstreamTtl_ne_none (by rw [httl]; exact Option.some_ne_none ttl)).1
    exact Or.inl ⟨hgives, by rw [← hstatus]; exact (fetchedHead_status cfg listener req route head).symm⟩

/-! ## What the cache and the tasks hold -/

/-- Some exchange put the entry, with an expiry of which this is a copy, and one sent its response. -/
def Backing (cfg : ProxyConfig) (log : List Exchange) (key : Str) (copy : SystemTime) (r : CachedResponse) : Prop :=
  (∃ x ∈ log, ∃ p, x.Puts cfg p ∧ p.key = key ∧ p.response = r ∧ CopyOf p.expiry copy) ∧
    ∃ x ∈ log, x.Sends cfg key r

/-- A file that a put wrote. -/
def BackedFile (cfg : ProxyConfig) (log : List Exchange) (_ : FileName) (file : File) : Prop :=
  ∃ x ∈ log, ∃ p, x.Puts cfg p ∧ Codec.Fits p.key p.response ∧ file.bytes = Codec.encode p.key p.expiry p.response ∧
    ∃ y ∈ log, y.Sends cfg p.key p.response

/-- A revalidation has in hand a response that was sent under its key. -/
def ProxyTask.Backed (cfg : ProxyConfig) (log : List Exchange) : ProxyTask → Prop
  | .revalidating _ _ key hit _ => ∃ x ∈ log, x.Sends cfg key hit
  | .fetching _ _ _ _ => True

/-- **Whatever the cache holds, an answer put; whatever a task holds, an answer sent.** -/
structure ProxyState.Backed (cfg : ProxyConfig) (log : List Exchange) (s : ProxyState) : Prop where
  cache : s.cache.Holds (Backing cfg log) (BackedFile cfg log)
  tasks : ∀ task ∈ s.tasks, task.Backed cfg log

section
variable {log : List Exchange}

theorem Backing.mono {key : Str} {copy : SystemTime} {r : CachedResponse} (h : Backing cfg log key copy r)
    (more : List Exchange) : Backing cfg (log ++ more) key copy r := by
  obtain ⟨⟨x, hx, hput⟩, y, hy, hsend⟩ := h
  exact ⟨⟨x, List.mem_append_left _ hx, hput⟩, y, List.mem_append_left _ hy, hsend⟩

theorem BackedFile.mono {name : FileName} {file : File} (h : BackedFile cfg log name file) (more : List Exchange) :
    BackedFile cfg (log ++ more) name file := by
  obtain ⟨x, hx, p, hput, hfits, hbytes, y, hy, hsend⟩ := h
  exact ⟨x, List.mem_append_left _ hx, p, hput, hfits, hbytes, y, List.mem_append_left _ hy, hsend⟩

theorem ProxyTask.Backed.mono {task : ProxyTask} (h : task.Backed cfg log) (more : List Exchange) :
    task.Backed cfg (log ++ more) := by
  cases task with
  | revalidating listener req key hit started =>
    obtain ⟨x, hx, hsend⟩ := h
    exact ⟨x, List.mem_append_left _ hx, hsend⟩
  | fetching listener req key route => trivial

theorem ProxyState.Backed.mono {s : ProxyState} (h : s.Backed cfg log) (more : List Exchange) :
    s.Backed cfg (log ++ more) :=
  ⟨h.cache.mono (fun hb => hb.mono more) (fun hf => hf.mono more), fun task ht => (h.tasks task ht).mono more⟩

/-- An entry read of the disk was put and sent. -/
theorem backing_of_readDisk {c : ResponseCache} (h : c.Holds (Backing cfg log) (BackedFile cfg log))
    {hash : Str → UInt64} {key : Str} {copy : SystemTime} {r : CachedResponse}
    (hread : c.readDisk hash key = .ok (some (copy, r))) : Backing cfg log key copy r := by
  have hwritten : ∀ {name file}, BackedFile cfg log name file → ∃ stored expiry response,
      ((∃ x ∈ log, ∃ p, x.Puts cfg p ∧ p.key = stored ∧ p.response = response ∧ p.expiry = expiry) ∧
        ∃ y ∈ log, y.Sends cfg stored response) ∧ Codec.Fits stored response ∧
        file.bytes = Codec.encode stored expiry response := by
    rintro name file ⟨x, hx, p, hput, hfits, hbytes, hsent⟩
    exact ⟨p.key, p.expiry, p.response, ⟨⟨x, hx, p, hput, rfl, rfl, rfl⟩, hsent⟩, hfits, hbytes⟩
  obtain ⟨found, hok, hfound⟩ := h.readDisk_spec
    (Q := fun stored expiry response =>
      (∃ x ∈ log, ∃ p, x.Puts cfg p ∧ p.key = stored ∧ p.response = response ∧ p.expiry = expiry) ∧
        ∃ y ∈ log, y.Sends cfg stored response) hwritten hash key
  rw [hread, Except.ok.injEq] at hok
  obtain ⟨expiry, rfl, ⟨x, hx, p, hput, hkey, hresponse, rfl⟩, hsent⟩ := hfound copy r hok.symm
  exact ⟨⟨x, hx, p, hput, hkey, hresponse, Or.inr rfl⟩, hsent⟩

theorem fetchTask_backed {listener : Listener} {req : Request} {key : Str} :
    ∀ task ∈ cfg.fetchTask listener req key, task.Backed cfg log := by
  intro task h
  unfold ProxyConfig.fetchTask at h
  split at h
  · split at h
    · rw [List.mem_singleton] at h
      subst h
      trivial
    · cases h
  · cases h

/-! ## Steps -/

theorem backed_request {s : ProxyState} (hs : s.Backed cfg log) (listener : Listener) (req : Request) (now : SystemTime)
    (env : Env) : (cfg.step s (.request listener req now env)).Backed cfg log := by
  simp only [ProxyConfig.step]
  split
  · exact hs
  · rename_i l hl
    split
    · exact hs
    · rename_i result cache hlookup
      obtain ⟨hcache, hresult⟩ := hs.cache.lookup (fun hread => backing_of_readDisk hs.cache hread) hlookup
      refine ⟨hcache, fun task ht => ?_⟩
      rcases List.mem_append.1 ht with ht | ht
      · exact hs.tasks task ht
      · unfold ProxyConfig.tasksOf at ht
        split at ht
        · cases ht
        · exact fetchTask_backed task ht
        · split at ht
          · rw [List.mem_singleton] at ht
            subst ht
            obtain ⟨copy, -, hsent⟩ := hresult _ (Or.inr rfl)
            exact hsent
          · exact fetchTask_backed task ht

theorem backed_answer {s : ProxyState} (hs : s.Backed cfg log) {i : Nat} {head : ResponseHead} {chunks : List Bytes}
    {now : SystemTime} {env : Env} (hfitting : s.Fitting cfg (.answer i head chunks now env)) :
    (cfg.step s (.answer i head chunks now env)).Backed cfg
      (log ++ (ProxyConfig.exchange s (.answer i head chunks now env)).toList) := by
  simp only [ProxyConfig.step]
  cases htask : s.tasks[i]? with
  | none => exact hs.mono _
  | some task =>
    have hexchange : ProxyConfig.exchange s (.answer i head chunks now env) = some ⟨task, head, chunks, now⟩ := by
      simp only [ProxyConfig.exchange, htask, Option.map_some]
    rw [hexchange, Option.toList_some]
    have hmono := hs.mono [⟨task, head, chunks, now⟩]
    have hin : Exchange.mk task head chunks now ∈ log ++ [⟨task, head, chunks, now⟩] :=
      List.mem_append_right _ List.mem_cons_self
    have htasks : ∀ t ∈ s.tasks.eraseIdx i ++ (cfg.outcome head chunks now task).2,
        t.Backed cfg (log ++ [⟨task, head, chunks, now⟩]) := by
      intro t ht
      rcases List.mem_append.1 ht with ht | ht
      · exact hmono.tasks t (List.mem_of_mem_eraseIdx ht)
      · cases task with
        | revalidating listener req key hit started =>
          simp only [ProxyConfig.outcome] at ht
          split at ht
          · cases ht
          · cases ht
          · exact fetchTask_backed t ht
        | fetching listener req key route => cases ht
    simp only
    cases hp : (cfg.outcome head chunks now task).1 with
    | none => exact ⟨hmono.cache, htasks⟩
    | some p =>
      have hputs : Exchange.Puts cfg ⟨task, head, chunks, now⟩ p := hp
      have hsent : ∃ y ∈ log ++ [⟨task, head, chunks, now⟩], y.Sends cfg p.key p.response := by
        rcases hputs.sends_or_hit with hsends | ⟨listener, req, started, rfl⟩
        · exact ⟨_, hin, hsends⟩
        · exact hmono.tasks _ (List.mem_of_getElem? htask)
      refine ⟨hmono.cache.put (fun _ hb => hb) (fun _ hf => hf) ⟨⟨_, hin, p, hputs, rfl, rfl, Or.inl rfl⟩, hsent⟩
        (fun hdisk => ⟨_, hin, p, hputs, hfitting _ p hexchange hp hdisk, rfl, hsent⟩), htasks⟩

theorem backed_fail {s : ProxyState} (hs : s.Backed cfg log) (i : Nat) : (cfg.step s (.fail i)).Backed cfg log := by
  simp only [ProxyConfig.step]
  split
  · refine ⟨hs.cache, fun t ht => ?_⟩
    rcases List.mem_append.1 ht with ht | ht
    · exact hs.tasks t (List.mem_of_mem_eraseIdx ht)
    · exact fetchTask_backed t ht
  · exact ⟨hs.cache, fun t ht => hs.tasks t (List.mem_of_mem_eraseIdx ht)⟩
  · exact hs

theorem backed_restart {s : ProxyState} (hs : s.Backed cfg log) (maxEntries : Nat) :
    (cfg.step s (.restart maxEntries)).Backed cfg log := by
  simp only [ProxyConfig.step]
  cases hd : s.cache.disk with
  | none => exact ⟨ResponseCache.holds_new maxEntries, fun t ht => (by cases ht)⟩
  | some disk => exact ⟨ResponseCache.holds_withDisk maxEntries (hs.cache.files hd), fun t ht => (by cases ht)⟩

/-- **Every step keeps what is backed**, by the exchanges so far and its own. -/
theorem backed_step {s : ProxyState} {e : ProxyEvent} (hs : s.Backed cfg log) (hfitting : s.Fitting cfg e) :
    (cfg.step s e).Backed cfg (log ++ (ProxyConfig.exchange s e).toList) := by
  cases e with
  | request listener req now env =>
    show ProxyState.Backed cfg (log ++ []) _
    rw [List.append_nil]
    exact backed_request hs listener req now env
  | answer i head chunks now env => exact backed_answer hs hfitting
  | fail i =>
    show ProxyState.Backed cfg (log ++ []) _
    rw [List.append_nil]
    exact backed_fail hs i
  | restart maxEntries =>
    show ProxyState.Backed cfg (log ++ []) _
    rw [List.append_nil]
    exact backed_restart hs maxEntries

/-- **A run keeps what is backed**, by its exchanges. -/
theorem backed_run {s t : ProxyState} {events : List ProxyEvent}
    (hrun : Runs.Run (Runs.Run.Where cfg.Next (ProxyState.Fitting cfg)) s events t) : ∀ log, s.Backed cfg log →
      t.Backed cfg (log ++ cfg.exchanges s events) := by
  induction hrun with
  | nil s =>
    intro log hs
    rwa [ProxyConfig.exchanges, List.append_nil]
  | @cons s u t e es hstep _ ih =>
    intro log hs
    obtain ⟨hnext, hfitting⟩ := hstep
    have hu := backed_step hs hfitting
    rw [← show u = cfg.step s e from hnext] at hu
    have ht := ih _ hu
    rw [List.append_assoc, show u = cfg.step s e from hnext] at ht
    exact ht

end

/-! ## Whole runs -/

theorem backed_start {c₀ : ResponseCache}
    (h₀ : ∃ maxEntries, c₀ = ResponseCache.new maxEntries ∨ c₀ = ResponseCache.withDisk maxEntries ∅) :
    (ProxyState.start c₀).Backed cfg [] := by
  refine ⟨?_, fun t ht => (by cases ht)⟩
  obtain ⟨maxEntries, rfl | rfl⟩ := h₀
  · exact ResponseCache.holds_new maxEntries
  · exact ResponseCache.holds_withDisk_empty maxEntries

/-- A fresh answer has a copy of its expiry to come. -/
theorem fresh_of_lookup {c c' : ResponseCache} {log : List Exchange}
    (h : c.Holds (Backing cfg log) (BackedFile cfg log)) {hash : Str → UInt64} {env : Env} {key : Str}
    {now : SystemTime} {r : CachedResponse} (hlookup : c.lookup hash env key now = .ok (.fresh r, c')) :
    ∃ copy, Backing cfg log key copy r ∧ copy.after now = true := by
  have hjudge : ∀ {copy response}, judge copy response now = .fresh r → r = response ∧ copy.after now = true := by
    intro copy response hj
    rcases ResponseCache.judge_eq copy response now with ⟨heq, hafter⟩ | heq
    · rw [heq] at hj
      cases hj
      exact ⟨rfl, hafter⟩
    · rw [heq] at hj
      cases hj
  rcases ResponseCache.lookup_cases hash env c key now with ⟨copy, response, hm, hl⟩ | ⟨copy, response, hread, hl⟩ |
    ⟨-, hl⟩ | ⟨panic, -, hl⟩
  · rw [hl, Except.ok.injEq, Prod.mk.injEq] at hlookup
    obtain ⟨rfl, hafter⟩ := hjudge hlookup.1
    exact ⟨copy, h.memory hm, hafter⟩
  · rw [hl, Except.ok.injEq, Prod.mk.injEq] at hlookup
    obtain ⟨rfl, hafter⟩ := hjudge hlookup.1
    exact ⟨copy, backing_of_readDisk h hread, hafter⟩
  · rw [hl, Except.ok.injEq, Prod.mk.injEq] at hlookup
    cases hlookup.1
  · rw [hl] at hlookup
    cases hlookup

/-- A copy of an expiry that is still to come, by a clock past the epoch, is no later than the expiry. -/
theorem CopyOf.after_of_nonneg {expiry copy now : SystemTime} (h : CopyOf expiry copy) (hnow : 0 ≤ now.nanos)
    (hafter : copy.after now = true) : now.nanos < expiry.nanos := by
  simp only [SystemTime.after, decide_eq_true_eq] at hafter
  rcases h with rfl | rfl
  · exact hafter
  · by_cases hpos : 0 ≤ expiry.nanos
    · have := SystemTime.truncSecs_le hpos
      omega
    · -- an expiry before the epoch is kept as the epoch
      have hzero : expiry.truncSecs.nanos = 0 := by
        show ((expiry.nanos / nanosPerSec).toNat : Int) * nanosPerSec = 0
        have : expiry.nanos / nanosPerSec ≤ 0 := Int.ediv_nonpos_of_nonpos_of_neg (by omega) (by decide)
        rw [Int.toNat_of_nonpos this]
        rfl
      omega

/-- **A response from the cache is served within its lifetime.**  In every run from an empty cache, in memory only or
over an empty directory, a response that a lookup finds fresh was sent by the origin with a 200 under the lookup's key,
and an answer under that key sent it, or confirmed it, less than its own lifetime before. -/
theorem served_within_lifetime (cfg : ProxyConfig) (c₀ : ResponseCache)
    (h₀ : ∃ maxEntries, c₀ = ResponseCache.new maxEntries ∨ c₀ = ResponseCache.withDisk maxEntries ∅)
    {events : List ProxyEvent} {s : ProxyState}
    (hrun : Runs.Run (Runs.Run.Where cfg.Next (ProxyState.Fitting cfg)) (ProxyState.start c₀) events s)
    {env : Env} {key : Str} {now : SystemTime} {r : CachedResponse} {c : ResponseCache} (hnow : 0 ≤ now.nanos)
    (hfresh : s.cache.lookup cfg.hash env key now = .ok (.fresh r, c)) :
    (∃ x ∈ cfg.exchanges (ProxyState.start c₀) events, x.Sends cfg key r) ∧
      ∃ x ∈ cfg.exchanges (ProxyState.start c₀) events, x.Gives cfg key r ∧
        ∃ n, r.Lifetime n ∧ now.nanos < x.base.nanos + n * nanosPerSec := by
  have hs := backed_run hrun [] (backed_start h₀)
  rw [List.nil_append] at hs
  obtain ⟨copy, ⟨⟨x, hx, p, hputs, rfl, rfl, hcopy⟩, hsent⟩, hafter⟩ := fresh_of_lookup hs.cache hfresh
  obtain ⟨hgives, n, hlifetime, hadd⟩ := hputs.gives
  refine ⟨hsent, x, hx, hgives, n, hlifetime, ?_⟩
  rw [← SystemTime.add_eq_ok_iff.1 hadd]
  exact hcopy.after_of_nonneg hnow hafter

/-- A response with a lifetime of a second, confirmed two seconds later. -/
def notModifiedEvents : List ProxyEvent :=
  missEvents ++ [.request .http1 (getWithHost "a.test".toList ['/']) thirdSecond Env.kept,
    .answer 0 ⟨304, ⟨[]⟩⟩ [] thirdSecond Env.kept]

def unmodifiedEntry : CachedResponse :=
  ⟨200, [("cache-control".toList, "max-age=1".toList), ("etag".toList, "v1".toList)], []⟩

theorem notModifiedEvents_fitting : Runs.Run (Runs.Run.Where oneUpstream.Next (ProxyState.Fitting oneUpstream))
    (ProxyState.start (ResponseCache.new 8)) notModifiedEvents (runProxy notModifiedEvents) :=
  .cons ⟨rfl, fun _ _ hx => by cases hx⟩ (.cons ⟨rfl, fun _ _ _ _ hd => absurd rfl hd⟩
    (.cons ⟨rfl, fun _ _ hx => by cases hx⟩ (.cons ⟨rfl, fun _ _ _ _ hd => absurd rfl hd⟩ (.nil _))))

theorem found_of_toOption {found : Except Panic (Lookup × ResponseCache)} {result : Lookup}
    (h : found.toOption.map Prod.fst = some result) : ∃ c, found = .ok (result, c) := by
  cases found with
  | error panic => cases h
  | ok pair => exact ⟨pair.2, by rw [← Option.some.inj h]⟩

theorem confirmed_response_served : ∃ l c, oneUpstream.lookupOf .http1 (getWithHost "a.test".toList ['/']) = some l ∧
    (runProxy notModifiedEvents).cache.lookup oneUpstream.hash Env.kept l.key thirdSecond =
      .ok (.fresh unmodifiedEntry, c) ∧
      ∃ x ∈ oneUpstream.exchanges (ProxyState.start (ResponseCache.new 8)) notModifiedEvents,
        x.Gives oneUpstream l.key unmodifiedEntry ∧
          ∃ n, unmodifiedEntry.Lifetime n ∧ thirdSecond.nanos < x.base.nanos + n * nanosPerSec := by
  obtain ⟨l, hl⟩ := Option.isSome_iff_exists.1
    (show (oneUpstream.lookupOf .http1 (getWithHost "a.test".toList ['/'])).isSome = true by decide)
  have hlookup : ∃ c, (runProxy notModifiedEvents).cache.lookup oneUpstream.hash Env.kept l.key thirdSecond =
      .ok (.fresh unmodifiedEntry, c) := by
    have hfound : (oneUpstream.lookupOf .http1 (getWithHost "a.test".toList ['/'])).map (fun l =>
        ((runProxy notModifiedEvents).cache.lookup oneUpstream.hash Env.kept l.key thirdSecond).toOption.map Prod.fst) =
          some (some (.fresh unmodifiedEntry)) := by decide
    rw [hl, Option.map_some, Option.some.injEq] at hfound
    exact found_of_toOption hfound
  obtain ⟨c, hc⟩ := hlookup
  exact ⟨l, c, hl, hc, (served_within_lifetime oneUpstream (ResponseCache.new 8) ⟨8, Or.inl rfl⟩
    notModifiedEvents_fitting (by decide) hc).2⟩

end Zaphyl
