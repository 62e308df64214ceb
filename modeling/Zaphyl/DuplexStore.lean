import Zaphyl.CachedBody
import Zaphyl.DuplexExchange
import Zaphyl.ResponseHeaders
/-!
# DuplexStore — what is stored of an exchange

The response filter gathers the body that it relays, and puts it with the task that ends it.  However the exchange goes,
an entry is put of a response that was read whole and without an error, and it holds what the client's handler was given
to write (`stored_whole_response`).
-/
namespace Zaphyl

open Mpsc Duplex

/-! ## The response filter -/

def HttpTask.isHeader : HttpTask → Bool
  | .header _ _ => true
  | _ => false

/-- What the filter of a request's response tasks depends on: the configured headers, the request's route and whether
it is a HEAD, the cache and its limit, the clock at each call of the body filter, and the compressor, which keeps a
task's kind and end. -/
structure StoreSettings (κ : Type) where
  heads : HeadSettings
  matched : Option Route
  isHead : Bool
  hasCache : Bool
  maxBody : Nat
  clock : Nat → SystemTime
  compress : κ → HttpTask → HttpTask × κ
  compress_keeps : ∀ state task, (compress state task).1.isEnd = task.isEnd ∧
    (compress state task).1.isFailed = task.isFailed ∧ (compress state task).1.switches = task.switches ∧
    (compress state task).1.isHeader = task.isHeader

structure StoreState (κ : Type) where
  compressor : κ
  ctx : CaptureCtx
  calls : Nat
  puts : List Store

/-- A response without a length is sent in chunks. -/
def chunkedHead (isHead : Bool) (head : ResponseHead) (ends : Bool) : ResponseHead :=
  let noBody := isHead || head.status = 204 || head.status = 304
  let informational := 100 ≤ head.status && head.status < 200
  if !noBody && !informational && !head.headers.containsKey HeaderName.transferEncoding &&
      !head.headers.containsKey HeaderName.contentLength && !ends then
    { head with headers := insertHeader head.headers ("transfer-encoding".toList, "chunked".toList) }
  else head

/-- The end of a request whose task panics. -/
def panicked : ProxyError := ⟨.other "panic".toList, .unset⟩

namespace StoreSettings

variable {κ : Type} (settings : StoreSettings κ)

/-- A body task: the filter of the upstream's bodies sees it. -/
def bodyFilter (st : StoreState κ) (compressor : κ) (task : HttpTask) (data : Option Bytes) (ends : Bool) :
    Except ProxyError (HttpTask × StoreState κ) :=
  match upstreamResponseBodyFilter settings.hasCache settings.maxBody st.ctx ⟨data, ends, settings.clock st.calls⟩ with
  | .ok (ctx, stored) => .ok (task, ⟨compressor, ctx, st.calls + 1, st.puts ++ stored.toList⟩)
  | .error _ => .error panicked

/-- The compressor, then `h1_response_filter` without a cache of the framework's own. -/
def filter (st : StoreState κ) (task : HttpTask) : Except ProxyError (HttpTask × StoreState κ) :=
  let compressed := settings.compress st.compressor task
  match compressed.1 with
  | .header head ends =>
    let sent := ZaphylProxy.responseFilter settings.heads settings.matched (chunkedHead settings.isHead head ends)
    .ok (.header sent ends,
      { st with compressor := compressed.2, ctx := upstreamResponseFilter settings.hasCache st.ctx head })
  | .body data ends => settings.bodyFilter st compressed.2 (.body data ends) data ends
  | .upgradedBody data ends => settings.bodyFilter st compressed.2 (.upgradedBody data ends) data ends
  | other => .ok (other, { st with compressor := compressed.2 })

theorem status_chunkedHead (isHead : Bool) (head : ResponseHead) (ends : Bool) :
    (chunkedHead isHead head ends).status = head.status := by
  unfold chunkedHead
  dsimp only
  split <;> rfl

theorem bodyFilter_eq_ok {st st' : StoreState κ} {compressor : κ} {task task' : HttpTask} {data : Option Bytes}
    {ends : Bool} (h : settings.bodyFilter st compressor task data ends = .ok (task', st')) :
    task' = task ∧ ∃ stored, upstreamResponseBodyFilter settings.hasCache settings.maxBody st.ctx
      ⟨data, ends, settings.clock st.calls⟩ = .ok (st'.ctx, stored) ∧ st'.puts = st.puts ++ stored.toList := by
  unfold bodyFilter at h
  split at h
  · rename_i ctx stored hfilter
    cases h
    exact ⟨rfl, stored, hfilter, rfl⟩
  · cases h

/-- **The filter keeps a task's kind, its end and a head's status.** -/
theorem filter_keeps {st st' : StoreState κ} {task task' : HttpTask} (h : settings.filter st task = .ok (task', st')) :
    task'.isEnd = task.isEnd ∧ task'.isFailed = task.isFailed ∧ task'.switches = task.switches := by
  obtain ⟨hend, hfailed, hswitches, -⟩ := settings.compress_keeps st.compressor task
  rw [← hend, ← hfailed, ← hswitches]
  unfold filter at h
  dsimp only at h
  cases hcompressed : (settings.compress st.compressor task).1 with
  | header head ends =>
    rw [hcompressed] at h
    cases h
    refine ⟨rfl, rfl, ?_⟩
    show decide ((chunkedHead settings.isHead head ends).status = 101) = decide (head.status = 101)
    rw [status_chunkedHead]
  | body data ends | upgradedBody data ends =>
    rw [hcompressed] at h
    obtain ⟨rfl, -⟩ := settings.bodyFilter_eq_ok h
    exact ⟨rfl, rfl, rfl⟩
  | trailer lines | done | failed e =>
    rw [hcompressed] at h
    cases h
    exact ⟨rfl, rfl, rfl⟩

end StoreSettings

/-! ## What the filter gathers -/

theorem extend_keeps (maxBody : Nat) (ctx : CaptureCtx) (chunk : Option Bytes) :
    (ctx.extend maxBody chunk).cacheTtl = ctx.cacheTtl ∧ ((ctx.extend maxBody chunk).cacheOverflow = false →
      (ctx.extend maxBody chunk).cacheBody = ctx.cacheBody ++ chunk.getD []) := by
  unfold CaptureCtx.extend
  cases chunk with
  | none => exact ⟨rfl, fun _ => (List.append_nil _).symm⟩
  | some chunk =>
    dsimp only
    split
    · exact ⟨rfl, fun h => by cases h⟩
    · exact ⟨rfl, fun _ => rfl⟩

/-- A call gathers its bytes, or it puts the whole body and takes the key. -/
theorem bodyFilter_gathers {maxBody : Nat} {ctx ctx' : CaptureCtx} {call : BodyCall} {stored : Option Store}
    (httl : ctx.cacheTtl ≠ none) (hfits : ctx.cacheOverflow = false)
    (h : upstreamResponseBodyFilter true maxBody ctx call = .ok (ctx', stored)) :
    (stored = none ∧ (ctx'.cacheOverflow = false → ctx'.cacheBody = ctx.cacheBody ++ call.bytes)) ∨
      ∃ p, stored = some p ∧ p.response.body = ctx.cacheBody ++ call.bytes := by
  obtain ⟨ttl, hsome⟩ := Option.ne_none_iff_exists'.1 httl
  obtain ⟨-, hbody⟩ := extend_keeps maxBody ctx call.body
  unfold upstreamResponseBodyFilter at h
  rw [hsome] at h
  dsimp only at h
  rw [if_neg (by rw [hfits]; exact Bool.false_ne_true)] at h
  split at h
  · rename_i key hend hkey
    obtain ⟨expiry, -, hp⟩ := Checks.bind_eq_ok.1 h
    cases hp
    refine .inr ⟨_, rfl, hbody ?_⟩
    have hnot := (Bool.and_eq_true_iff.1 hend).2
    rwa [Bool.not_eq_true'] at hnot
  · cases h
    exact .inl ⟨rfl, hbody⟩

/-- A call without a cache or a lifetime, or behind an overflow, changes nothing; one that puts has them. -/
theorem bodyFilter_active {hasCache : Bool} {maxBody : Nat} {ctx ctx' : CaptureCtx} {call : BodyCall}
    {stored : Option Store} (h : upstreamResponseBodyFilter hasCache maxBody ctx call = .ok (ctx', stored)) :
    (ctx' = ctx ∧ stored = none ∧ ¬(hasCache = true ∧ ctx.cacheTtl ≠ none ∧ ctx.cacheOverflow = false)) ∨
      hasCache = true ∧ ctx.cacheTtl ≠ none ∧ ctx.cacheOverflow = false ∧ ctx'.cacheTtl = ctx.cacheTtl := by
  unfold upstreamResponseBodyFilter at h
  split at h
  · rename_i ttl httl
    split at h
    · rename_i hover
      cases h
      exact .inl ⟨rfl, rfl, fun hactive => absurd (hactive.2.2.symm.trans hover) Bool.false_ne_true⟩
    · rename_i hfits
      refine .inr ⟨rfl, by rw [httl]; exact Option.some_ne_none ttl, Bool.eq_false_iff.2 hfits, ?_⟩
      have hkeeps := (extend_keeps maxBody ctx call.body).1
      dsimp only at h
      split at h
      · obtain ⟨expiry, -, hp⟩ := Checks.bind_eq_ok.1 h
        cases hp
        exact hkeeps
      · cases h
        exact hkeeps
  · rename_i hnot
    cases h
    refine .inl ⟨rfl, rfl, fun ⟨hcache, httl, _⟩ => ?_⟩
    obtain ⟨ttl, hsome⟩ := Option.ne_none_iff_exists'.1 httl
    exact hnot ttl hcache hsome

section

variable {κ : Type} {settings : StoreSettings κ} {done outs : List HttpTask} {st st' : StoreState κ}

/-- What the filter holds once it has made `outs` of `done`: the bytes relayed so far, or the one entry that it put with
the task that ended the body. -/
structure StoreSettings.Gathered (settings : StoreSettings κ) (done outs : List HttpTask) (st : StoreState κ) :
    Prop where
  length : outs.length = done.length
  heads : (∀ task ∈ done, task.isHeader = true) → dataOf outs = [] ∧ st.puts = [] ∧ st.ctx.cacheBody = []
  active : st.ctx.cacheTtl ≠ none → settings.hasCache = true
  gathers : st.puts = [] → st.ctx.cacheTtl ≠ none → st.ctx.cacheOverflow = false → st.ctx.cacheBody = dataOf outs
  put : ∀ p ∈ st.puts, st.puts = [p] ∧ st.ctx.cacheKey = none ∧ ∃ before task after, done = before ++ task :: after ∧
    task.isEnd = true ∧ task.isFailed = false ∧ p.response.body = dataOf (outs.take (before.length + 1))

theorem upstreamResponseFilter_keeps (hasCache : Bool) (ctx : CaptureCtx) (head : ResponseHead) :
    (upstreamResponseFilter hasCache ctx head).cacheBody = ctx.cacheBody ∧
      ((upstreamResponseFilter hasCache ctx head).cacheTtl ≠ none → ctx.cacheTtl ≠ none ∨ hasCache = true) := by
  unfold upstreamResponseFilter
  split
  · rename_i hcache
    have hcache' := (Bool.and_eq_true_iff.1 hcache).1
    split
    · exact ⟨rfl, fun _ => .inr hcache'⟩
    · exact ⟨rfl, fun _ => .inr hcache'⟩
  · exact ⟨rfl, .inl⟩

theorem dataOf_body (task : HttpTask) (data : Option Bytes) (h : task.data = data) :
    dataOf [task] = data.getD [] := by
  rw [dataOf_singleton, h]
  cases data with
  | none => rfl
  | some data => exact List.append_nil _

/-- The entry that was put stays where it was. -/
theorem StoreSettings.Gathered.put_append (h : settings.Gathered done outs st) (task out : HttpTask) {p : Store}
    (hp : p ∈ st.puts) :
    ∃ before ended after, done ++ [task] = before ++ ended :: after ∧ ended.isEnd = true ∧ ended.isFailed = false ∧
      p.response.body = dataOf ((outs ++ [out]).take (before.length + 1)) := by
  obtain ⟨-, -, before, ended, after, hdone, hend, hfailed, hbody⟩ := h.put p hp
  refine ⟨before, ended, after ++ [task], by rw [hdone, List.append_assoc]; rfl, hend, hfailed, ?_⟩
  rw [List.take_append_of_le_length, hbody]
  rw [h.length, hdone, List.length_append, List.length_cons]
  omega

/-- A task without data that is no head changes neither the context nor what is put. -/
theorem StoreSettings.Gathered.other (h : settings.Gathered done outs st) {task out : HttpTask}
    (hkind : task.isHeader = false) (hdata : out.data = none) (hctx : st'.ctx = st.ctx) (hputs : st'.puts = st.puts) :
    settings.Gathered (done ++ [task]) (outs ++ [out]) st' := by
  have hsame : dataOf (outs ++ [out]) = dataOf outs := by
    rw [dataOf_append, dataOf_body out none hdata]
    exact List.append_nil _
  constructor
  · rw [List.length_append, List.length_append, h.length]
    rfl
  · intro hheads
    have := hheads task (List.mem_append_right _ List.mem_cons_self)
    rw [hkind] at this
    cases this
  · rw [hctx]
    exact h.active
  · rw [hctx, hputs, hsame]
    exact h.gathers
  · rw [hctx, hputs]
    exact fun p hp => ⟨(h.put p hp).1, (h.put p hp).2.1, h.put_append task out hp⟩

/-- A head before any body. -/
theorem StoreSettings.Gathered.header (h : settings.Gathered done outs st) {task out : HttpTask} {head : ResponseHead}
    (hfirst : ∀ task ∈ done, task.isHeader = true) (hdata : out.data = none)
    (hctx : st'.ctx = upstreamResponseFilter settings.hasCache st.ctx head) (hputs : st'.puts = st.puts) :
    settings.Gathered (done ++ [task]) (outs ++ [out]) st' := by
  obtain ⟨hnone, hopen, hbody⟩ := h.heads hfirst
  obtain ⟨hkeeps, hactive⟩ := upstreamResponseFilter_keeps settings.hasCache st.ctx head
  have hsame : dataOf (outs ++ [out]) = [] := by
    rw [dataOf_append, dataOf_body out none hdata, hnone]
    rfl
  constructor
  · rw [List.length_append, List.length_append, h.length]
    rfl
  · exact fun _ => ⟨hsame, hputs.trans hopen, by rw [hctx, hkeeps, hbody]⟩
  · rw [hctx]
    exact fun httl => (hactive httl).elim h.active id
  · intro _ _ _
    rw [hctx, hkeeps, hbody, hsame]
  · intro p hp
    rw [hputs, hopen] at hp
    cases hp

/-- A body task is gathered, or it ends the body that is put. -/
theorem StoreSettings.Gathered.body (h : settings.Gathered done outs st) {task out : HttpTask} {data : Option Bytes}
    {ends : Bool} {now : SystemTime} {stored : Option Store} (hkind : task.isHeader = false) (hend : task.isEnd = ends)
    (hfailed : task.isFailed = false) (hdata : out.data = data)
    (hfilter : upstreamResponseBodyFilter settings.hasCache settings.maxBody st.ctx ⟨data, ends, now⟩ =
      .ok (st'.ctx, stored)) (hputs : st'.puts = st.puts ++ stored.toList) :
    settings.Gathered (done ++ [task]) (outs ++ [out]) st' := by
  have hbytes : dataOf (outs ++ [out]) = dataOf outs ++ data.getD [] := by
    rw [dataOf_append, dataOf_body out data hdata]
  have hheads : (∀ other ∈ done ++ [task], other.isHeader = true) → False := by
    intro hall
    have := hall task (List.mem_append_right _ List.mem_cons_self)
    rw [hkind] at this
    cases this
  have hlength : (outs ++ [out]).length = (done ++ [task]).length := by
    rw [List.length_append, List.length_append, h.length]
    rfl
  obtain ⟨hctx, hnone, hidle⟩ | ⟨hcache, httl, hfits, hkeeps⟩ := bodyFilter_active hfilter
  · -- nothing is gathered, neither without a lifetime nor behind an overflow
    have hputs' : st'.puts = st.puts := by rw [hputs, hnone, Option.toList_none, List.append_nil]
    refine ⟨hlength, fun hall => (hheads hall).elim, by rw [hctx]; exact h.active, fun _ httl hfits => ?_,
      fun p hp => ?_⟩
    · rw [hctx] at httl hfits
      exact absurd ⟨h.active httl, httl, hfits⟩ hidle
    · rw [hputs'] at hp ⊢
      rw [hctx]
      exact ⟨(h.put p hp).1, (h.put p hp).2.1, h.put_append task out hp⟩
  · have hgathers := bodyFilter_gathers httl hfits (hcache ▸ hfilter)
    refine ⟨hlength, fun hall => (hheads hall).elim, fun _ => hcache, fun hopen _ hfits' => ?_, fun p hp => ?_⟩
    · rw [hputs, List.append_eq_nil_iff] at hopen
      obtain ⟨-, hbody⟩ | ⟨p, hp, -⟩ := hgathers
      · rw [hbody hfits', h.gathers hopen.1 httl hfits, hbytes]
        rfl
      · rw [hp] at hopen
        cases hopen.2
    · obtain ⟨hnone, hkey⟩ | ⟨hended, hkey, hnokey⟩ := filter_cases hfilter
      · rw [hputs, hnone, Option.toList_none, List.append_nil] at hp ⊢
        exact ⟨(h.put p hp).1, hkey.trans (h.put p hp).2.1, h.put_append task out hp⟩
      · -- the first put, since one before would have taken the key
        have hopen : st.puts = [] := by
          by_contra hne
          obtain ⟨q, hq⟩ := List.exists_mem_of_ne_nil _ hne
          exact hkey (h.put q hq).2.1
        obtain ⟨hnone, -⟩ | ⟨q, hq, hbody⟩ := hgathers
        · rw [hputs, hopen, hnone] at hp
          cases hp
        · rw [hputs, hopen, hq, Option.toList_some, List.nil_append] at hp ⊢
          obtain rfl := List.mem_singleton.1 hp
          refine ⟨rfl, hnokey, done, task, [], rfl, hend.trans hended, hfailed, ?_⟩
          rw [List.take_of_length_le (by rw [hlength, List.length_append]; exact Nat.le_refl _), hbytes, hbody,
            h.gathers hopen httl hfits]
          rfl

/-- A body comes behind all heads. -/
def HeadsFirst (tasks : List HttpTask) : Prop :=
  ∀ before task after, tasks = before ++ task :: after → task.isHeader = true → ∀ t ∈ before, t.isHeader = true

/-- One task through the filter. -/
theorem gathered_filter {task out : HttpTask} (h : settings.Gathered done outs st)
    (hfirst : task.isHeader = true → ∀ t ∈ done, t.isHeader = true)
    (hfilter : settings.filter st task = .ok (out, st')) :
    settings.Gathered (done ++ [task]) (outs ++ [out]) st' := by
  obtain ⟨hend, hfailed, -, hheader⟩ := settings.compress_keeps st.compressor task
  rw [StoreSettings.filter] at hfilter
  cases hcompressed : (settings.compress st.compressor task).1 with
  | header head ends =>
    rw [hcompressed] at hfilter hheader
    cases hfilter
    exact h.header (hfirst hheader.symm) rfl rfl rfl
  | body data ends | upgradedBody data ends =>
    rw [hcompressed] at hfilter hend hfailed hheader
    obtain ⟨rfl, stored, hstored, hputs⟩ := settings.bodyFilter_eq_ok hfilter
    exact h.body hheader.symm hend.symm hfailed.symm rfl hstored hputs
  | trailer lines | done | failed e =>
    rw [hcompressed] at hfilter hheader
    cases hfilter
    exact h.other hheader.symm rfl rfl rfl

theorem gathered_filterTasks {cfg : DuplexConfig (StoreState κ)} (hcfg : cfg.responseFilter = settings.filter) :
    ∀ {tasks done outs outs' : List HttpTask} {st st' : StoreState κ}, settings.Gathered done outs st →
      HeadsFirst (done ++ tasks) → cfg.filterTasks st tasks = .ok (outs', st') →
      settings.Gathered (done ++ tasks) (outs ++ outs') st'
  | [], done, outs, outs', st, st', h, _, hfiltered => by
    cases hfiltered
    rwa [List.append_nil, List.append_nil]
  | task :: tasks, done, outs, outs', st, st', h, hheads, hfiltered => by
    have hfiltered' : (settings.filter st task).bind (fun a => (cfg.filterTasks a.2 tasks).bind
        (fun b => .ok (a.1 :: b.1, b.2))) = .ok (outs', st') := hcfg ▸ hfiltered
    cases hfirst : settings.filter st task with
    | error e =>
      rw [hfirst] at hfiltered'
      cases hfiltered'
    | ok a =>
      rw [hfirst] at hfiltered'
      have hrest : (cfg.filterTasks a.2 tasks).bind (fun b => .ok (a.1 :: b.1, b.2)) = .ok (outs', st') := hfiltered'
      cases htasks : cfg.filterTasks a.2 tasks with
      | error e =>
        rw [htasks] at hrest
        cases hrest
      | ok b =>
        rw [htasks] at hrest
        cases hrest
        have hstep := gathered_filter h (hheads done task tasks rfl) hfirst
        have hdone : done ++ task :: tasks = done ++ [task] ++ tasks := by rw [List.append_assoc]; rfl
        rw [hdone] at hheads ⊢
        have := gathered_filterTasks hcfg hstep hheads htasks
        rw [List.append_assoc outs] at this
        exact this

end

/-! ## Whole exchanges -/

variable {ψ : Type} {cfg : DuplexConfig ψ} {s t : Duplex ψ} {e : DuplexEvent}

/-- The filter stands behind all tasks that were received. -/
def Duplex.Filtered (cfg : DuplexConfig ψ) (s : Duplex ψ) : Prop :=
  ∃ outs, cfg.filterTasks cfg.filterStart s.responses.taken = .ok (outs, s.down.filter)

theorem filtered_downTop (h : s.Filtered cfg) : s.downTop.Filtered cfg := by
  obtain ⟨-, -, htop⟩ | ⟨-, htop⟩ := s.downTop_cases
  · rw [htop]
    exact h
  · rw [htop]
    exact h

theorem filtered_step (h : s.Filtered cfg) (hstep : Duplex.Step cfg s e t) : t.Filtered cfg := by
  obtain ⟨-, hdown | hup⟩ := hstep
  · cases hdown with
    | start hpc room alive =>
      obtain ⟨-, h'⟩ | ⟨seen, h' | ⟨-, h'⟩ | ⟨task, -, -, h'⟩⟩ := onStart_cases cfg s room
      · rw [h']
        exact filtered_downTop h
      · rw [h']
        exact h
      · rw [h']
        exact filtered_downTop h
      · rw [h']
        exact filtered_downTop h
    | startRefused | bodyError | tasksRefused | writeError => exact h
    | startWithout | permit | upstreamGone => exact filtered_downTop h
    | @body data bodyDone hpc room reading expected ended =>
      obtain ⟨seen, h' | ⟨-, -, h'⟩ | ⟨task, -, h'⟩⟩ := onBody_cases cfg s room data bodyDone
      · rw [h']
        exact h
      · rw [h']
        exact filtered_downTop h
      · rw [h']
        exact filtered_downTop h
    | @tasks permit tasks filter hpc more waits filtered =>
      obtain ⟨outs, houts⟩ := h
      refine ⟨outs ++ tasks, ?_⟩
      show cfg.filterTasks cfg.filterStart s.responses.recvAll.taken = .ok (outs ++ tasks, filter)
      rw [Chan.taken_recvAll, ← s.responses.taken_append_waiting]
      exact filterTasks_append_ok houts filtered
    | wrote =>
      unfold onWrote
      dsimp only
      split
      · exact filtered_downTop h
      · exact filtered_downTop h
  · obtain ⟨hdown, -, -, htaken, -⟩ := hup.keeps
    unfold Duplex.Filtered
    rw [hdown, htaken]
    exact h

/-- **An entry is stored of a response that was read whole**, once and without an error: its body is what was relayed of
the response, as the compressor left it. -/
theorem stored_whole_response {κ : Type} (settings : StoreSettings κ) {cfg : DuplexConfig (StoreState κ)}
    {s : Duplex (StoreState κ)} {es : List DuplexEvent} {compressor : κ} {cacheKey : Option Str}
    (hfilter : cfg.responseFilter = settings.filter) (hstart : cfg.filterStart = ⟨compressor, .new cacheKey, 0, []⟩)
    (hrun : Runs.Run (Duplex.Step cfg) (Duplex.start cfg) es s) (hheads : HeadsFirst s.up.read) :
    ∀ p ∈ s.down.filter.puts, s.down.filter.puts = [p] ∧ s.up.read.any HttpTask.isFailed = false ∧
      ∃ before last outs, s.up.read = before ++ [last] ∧ last.isEnd = true ∧
        cfg.filterTasks cfg.filterStart s.up.read = .ok (outs, s.down.filter) ∧ p.response.body = dataOf outs := by
  intro p hp
  have h := exchange_of_run hrun
  obtain ⟨outs, houts⟩ : s.Filtered cfg := hrun.invariant (fun _ _ _ => filtered_step) ⟨[], rfl⟩
  have hpre := s.responses.taken_prefix.trans h.relays.reads.sent_prefix
  have hgathered : settings.Gathered s.responses.taken outs s.down.filter := by
    have hnil : settings.Gathered [] [] ⟨compressor, .new cacheKey, 0, []⟩ :=
      ⟨rfl, fun _ => ⟨rfl, rfl, rfl⟩, fun httl => absurd rfl httl, fun _ httl => absurd rfl httl,
        fun p hp => absurd hp List.not_mem_nil⟩
    have hfirst : HeadsFirst s.responses.taken := by
      obtain ⟨after', hread⟩ := hpre
      intro before task after htaken
      exact hheads before task (after ++ after') (by rw [← hread, htaken, List.append_assoc]; rfl)
    exact gathered_filterTasks hfilter hnil hfirst (hstart ▸ houts)
  obtain ⟨honce, -, before, last, after, hdone, hend, hfailed, hbody⟩ := hgathered.put p hp
  have hmem : last ∈ s.responses.taken := hdone ▸ List.mem_append_right _ List.mem_cons_self
  have htaken : s.responses.taken = s.up.read :=
    prefix_eq_of_mem hpre hmem (fun hlast => absurd ((h.fetches.last last hlast).symm.trans hend) Bool.false_ne_true)
  rw [htaken] at hdone houts
  -- the end that was put is the last task, since none is read behind an end
  have hafter : after = [] := by
    by_contra hne
    have hlast : last ∈ s.up.read.dropLast := by
      rw [hdone, List.dropLast_append_of_ne_nil (List.cons_ne_nil _ _), List.dropLast_cons_of_ne_nil hne]
      exact List.mem_append_right _ List.mem_cons_self
    exact absurd ((h.fetches.last last hlast).symm.trans hend) Bool.false_ne_true
  subst hafter
  refine ⟨honce, ?_, before, last, outs, hdone, hend, houts, ?_⟩
  · rw [List.any_eq_false]
    intro task htask hbad
    rw [hdone, List.mem_append, List.mem_singleton] at htask
    obtain hbefore | rfl := htask
    · have hlast : task ∈ s.up.read.dropLast := by rwa [hdone, List.dropLast_concat]
      have := h.fetches.last task hlast
      cases task with
      | failed e => cases this
      | header | body | upgradedBody | trailer | done => cases hbad
    · exact absurd (hfailed.symm.trans hbad) Bool.false_ne_true
  · rw [hbody, List.take_of_length_le]
    rw [hgathered.length, htaken, hdone, List.length_append]
    exact Nat.le_refl _

/-! ## An exchange that is stored -/

/-- A cache, and no compressor. -/
def storing : StoreSettings Unit where
  heads := ⟨[], none, false, fun _ _ => []⟩
  matched := none
  isHead := false
  hasCache := true
  maxBody := 10
  clock := fun _ => firstSecond
  compress := fun state task => (task, state)
  compress_keeps := fun _ _ => ⟨rfl, rfl, rfl, rfl⟩

/-- A bodiless request under a key. -/
def storingConfig : DuplexConfig (StoreState Unit) where
  maxBody := none
  upgradeAsked := false
  upgradeSent := false
  bodyEmpty := true
  bodyDone := true
  retryBuffer := none
  bodySeen := 0
  filterStart := ⟨(), .new (some ['k']), 0, []⟩
  responseFilter := storing.filter
  done_of_empty := id
  sent_of_asked := id
  filter_keeps := storing.filter_keeps

/-- The request's end, then a response of a head and two chunks. -/
def storingRun : List DuplexEvent :=
  [.start, .take, .uploaded (.ok ()), .read (.ok (.header (okHead [("cache-control", "max-age=60")]) false)), .sent,
    .read (.ok (.body (some [104]) false)), .sent, .tasks, .wrote (.ok false) true,
    .read (.ok (.body (some [105]) true)), .sent, .tasks, .wrote (.ok true) true]

theorem headsFirst_cons {task : HttpTask} {rest : List HttpTask} (h : ∀ t ∈ rest, t.isHeader = false) :
    HeadsFirst (task :: rest) := by
  intro before head after hsplit hheader
  cases before with
  | nil => exact fun t ht => absurd ht List.not_mem_nil
  | cons first before =>
    have hmem : head ∈ rest := by
      rw [(List.cons.inj hsplit).2]
      exact List.mem_append_right _ List.mem_cons_self
    exact absurd ((h head hmem).symm.trans hheader) Bool.false_ne_true

theorem stored_whole_response_once :
    ∃ s, Runs.Run (Duplex.Step storingConfig) (Duplex.start storingConfig) storingRun s ∧
      s.down.filter.puts.map (fun p => p.response.body) = [[104, 105]] ∧
      ∀ p ∈ s.down.filter.puts, s.down.filter.puts = [p] ∧ s.up.read.any HttpTask.isFailed = false ∧
        ∃ before last outs, s.up.read = before ++ [last] ∧ last.isEnd = true ∧
          storingConfig.filterTasks storingConfig.filterStart s.up.read = .ok (outs, s.down.filter) ∧
          p.response.body = dataOf outs := by
  obtain ⟨s, hs, hread, hputs⟩ :
      ∃ s, storingRun.foldlM (Duplex.next storingConfig) (Duplex.start storingConfig) = some s ∧
      s.up.read = [.header (okHead [("cache-control", "max-age=60")]) false, .body (some [104]) false,
        .body (some [105]) true] ∧ s.down.filter.puts.map (fun p => p.response.body) = [[104, 105]] :=
    ⟨_, rfl, rfl, rfl⟩
  have hheads : HeadsFirst s.up.read := by
    rw [hread]
    exact headsFirst_cons (by decide)
  exact ⟨s, run_of_next hs, hputs, stored_whole_response storing rfl rfl (run_of_next hs) hheads⟩

end Zaphyl
