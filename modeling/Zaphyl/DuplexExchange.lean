import Zaphyl.DuplexEnds
/-!
# DuplexExchange — a whole exchange over an HTTP/1 upstream connection

The handlers wait for one of their connections or go on, and never for each other (`never_deadlocked`); what both have
completed is a whole response to a whole request (`completed_exchange`), and the upstream is shown the end of a body
only when it was written all of it (`finished_body_whole`).
-/
namespace Zaphyl

open Mpsc Duplex

variable {ψ : Type} {cfg : DuplexConfig ψ} {s t : Duplex ψ} {e : DuplexEvent}

/-! ## The end of the response -/

/-- The response has come to an end that the client's side knows: its last task is written, the body writer was
finished before, all was received of a handler that is done, or the client has ended a tunnel. -/
def Duplex.ResponseEnded (s : Duplex ψ) : Prop :=
  s.down.wrote.any HttpTask.isEnd = true ∨ s.down.writerFinished = true ∨
    (s.responses.taken = s.up.read ∧ s.up.read.any HttpTask.isEnd = true ∧ s.up.pc = .returned (.ok ())) ∨
    ∃ task ∈ s.requests.sent, task.closes true = true

def Duplex.Answered (s : Duplex ψ) : Prop :=
  s.down.responseState.upstreamDone = true → s.ResponseEnded ∨ ∃ r, s.down.pc = .returned (.error r)

theorem answered_downTop (h : s.down.responseState.upstreamDone = true → s.ResponseEnded) : s.downTop.Answered := by
  obtain ⟨-, -, htop⟩ | ⟨-, htop⟩ := s.downTop_cases
  · rw [htop]
    exact fun hdone => .inl (h hdone)
  · rw [htop]
    exact fun hdone => .inl (h hdone)

theorem closes_of_failed {tasks : List HttpTask} (h : tasks.any HttpTask.isFailed = true) :
    tasks.any HttpTask.isEnd = true := by
  obtain ⟨task, hmem, hfailed⟩ := List.any_eq_true.1 h
  refine List.any_eq_true.2 ⟨task, hmem, ?_⟩
  cases task with
  | failed e => rfl
  | header | body | upgradedBody | trailer | done => cases hfailed

/-- When the upstream handler is gone and nothing waits, all that it read was received, and it ends the response. -/
theorem ended_of_gone (hrelays : s.Relays cfg) (hheld : s.Held) (hfetches : s.Fetches cfg) (hat : s.UpAt)
    (hrun : s.aborted = false) (hdown : s.down.pc.hasReturned = false) (hempty : s.responses.waiting = [])
    (hgone : s.responses.senderAlive = false) : s.ResponseEnded := by
  have hreturned : s.up.pc = .returned (.ok ()) := by
    have hgone' := hheld.responseSender.symm.trans hgone
    cases hup : s.up.pc with
    | returned result =>
      cases result with
      | ok _ => rfl
      | error r => exact absurd hup (up_not_failed hrun r)
    | select | sending task | sendingFailure task | uploading task =>
      rw [hup] at hgone'
      cases hgone'
  have halive : s.responses.receiverAlive = true := by
    rw [hheld.responseReceiver, hdown]
    rfl
  have htaken : s.responses.taken = s.up.read := by
    have := hrelays.reads.whole halive
    rw [hreturned] at this
    rw [Chan.taken_eq_sent hempty, ← this]
    exact (List.append_nil _).symm
  obtain ⟨-, hresponse⟩ | hfailed := hat.finished hreturned
  · obtain hend | ⟨-, hup, ⟨task, hmem, hcloses⟩ | ⟨hpc, -⟩⟩ := hfetches.response hresponse
    · exact .inr (.inr (.inl ⟨htaken, hend, hreturned⟩))
    · rw [hup] at hcloses
      exact .inr (.inr (.inr ⟨task, s.requests.taken_prefix.subset hmem, hcloses⟩))
    · rw [hpc] at hdown
      cases hdown
  · exact .inr (.inr (.inl ⟨htaken, closes_of_failed hfailed, hreturned⟩))

theorem answered_down (h : s.Answered) (hrelays : s.Relays cfg) (hheld : s.Held) (hfetches : s.Fetches cfg)
    (hat : s.UpAt) (hstep : DownstreamStep cfg s e t) (hrun : s.aborted = false) : t.Answered := by
  have hended : s.down.responseState.upstreamDone = true → s.ResponseEnded := fun hdone =>
    (h hdone).resolve_right (fun ⟨r, hr⟩ => down_not_failed hrun r hr)
  have hkeep : ∀ {down : DownstreamHandler ψ} {requests : Chan HttpTask taskBufferSize},
      (s.down.wrote.any HttpTask.isEnd = true → down.wrote.any HttpTask.isEnd = true) →
      (s.down.writerFinished = true → down.writerFinished = true) →
      (∀ task ∈ s.requests.sent, task ∈ requests.sent) → s.down.responseState.upstreamDone = true →
      ({ s with down := down, requests := requests } : Duplex ψ).ResponseEnded := by
    intro down requests hwrote hfinished hsent hdone
    obtain hend | hfin | hall | ⟨task, hmem, hcloses⟩ := hended hdone
    · exact .inl (hwrote hend)
    · exact .inr (.inl (hfinished hfin))
    · exact .inr (.inr (.inl hall))
    · exact .inr (.inr (.inr ⟨task, hsent task hmem, hcloses⟩))
  have hreturn : ∀ {u : Duplex ψ} (r : ProxyError), (u.downReturn (.error r)).Answered := fun r _ => .inr ⟨r, rfl⟩
  have hsend : ∀ (task : HttpTask) (room : s.requests.HasRoom), ∀ other ∈ s.requests.sent,
      other ∈ (s.requests.send task room).sent := fun task room other hmem => List.mem_append_left _ hmem
  cases hstep with
  | start hpc room alive =>
    obtain ⟨-, h'⟩ | ⟨seen, h' | ⟨-, h'⟩ | ⟨task, -, -, h'⟩⟩ := onStart_cases cfg s room
    · rw [h']
      exact answered_downTop hended
    · rw [h']
      exact hreturn _
    · rw [h']
      exact answered_downTop (hkeep id id (fun _ => id))
    · rw [h']
      exact answered_downTop (hkeep id id (hsend task room))
  | startRefused => exact hreturn _
  | startWithout => exact answered_downTop hended
  | @body data bodyDone hpc room reading expected ended =>
    obtain ⟨seen, h' | ⟨-, hdata, h'⟩ | ⟨task, htask, h'⟩⟩ := onBody_cases cfg s room data bodyDone
    · rw [h']
      exact hreturn _
    · rw [h', hdata]
      exact answered_downTop (hkeep id id (fun _ => id))
    · rw [h']
      refine answered_downTop (fun hdone => ?_)
      have hdone' := (ResponseState.upstreamDone_maybe _ _).symm.trans hdone
      obtain hnow | hold := Bool.or_eq_true_iff.1 hdone'
      · rw [Bool.and_eq_true] at hnow
        refine .inr (.inr (.inr ⟨task, List.mem_append_right _ List.mem_cons_self, ?_⟩))
        rw [htask, hnow.2, hnow.1, Bool.or_true]
        rfl
      · exact hkeep id id (hsend task room) hold
  | bodyError => exact hreturn _
  | permit => exact answered_downTop (hkeep id id (fun _ => id))
  | tasks hpc more => exact fun hdone => absurd (more.symm.trans hdone) Bool.false_ne_true
  | tasksRefused => exact hreturn _
  | upstreamGone hpc more empty gone =>
    have hend := ended_of_gone hrelays hheld hfetches hat hrun (by rw [hpc]; rfl) empty gone
    exact answered_downTop (fun _ => hend)
  | @wrote tasks finished bodyDone hpc clean =>
    have hwrote : s.down.wrote.any HttpTask.isEnd = true → (s.down.wrote ++ tasks).any HttpTask.isEnd = true := by
      intro hend
      rw [List.any_append, hend]
      rfl
    have hfinished : s.down.writerFinished = true →
        (s.down.writerFinished || finished && !tasks.any HttpTask.isEnd) = true := by
      intro hfin
      rw [hfin]
      rfl
    unfold onWrote
    dsimp only
    split
    · exact answered_downTop (hkeep hwrote hfinished (fun _ => id))
    · refine answered_downTop (fun hdone => ?_)
      have hdone' := (ResponseState.upstreamDone_maybe _ _).symm.trans hdone
      rw [Bool.or_eq_true, Bool.or_eq_true] at hdone'
      obtain (hend | hfin) | hold := hdone'
      · refine .inl ?_
        show (s.down.wrote ++ tasks).any HttpTask.isEnd = true
        rw [List.any_append, hend, Bool.or_true]
      · refine (Classical.em (tasks.any HttpTask.isEnd = true)).imp (fun hend => ?_) (fun hend => .inl ?_)
        · show (s.down.wrote ++ tasks).any HttpTask.isEnd = true
          rw [List.any_append, hend, Bool.or_true]
        · show (s.down.writerFinished || finished && !tasks.any HttpTask.isEnd) = true
          rw [hfin, Bool.eq_false_iff.2 hend, Bool.not_false, Bool.and_true, Bool.or_true]
      · exact hkeep hwrote hfinished (fun _ => id) hold
  | writeError => exact hreturn _

theorem answered_up (h : s.Answered) (hstep : UpstreamStep cfg s e t) : t.Answered := by
  obtain ⟨hdown, hsent, -, htaken, -⟩ := hstep.keeps
  unfold Duplex.Answered Duplex.ResponseEnded
  rw [hdown, hsent]
  refine fun hdone => (h hdone).imp (Or.imp id (Or.imp id (Or.imp (fun ⟨_, _, hpc⟩ => ?_) id))) id
  exact absurd hpc (hstep.running _)

/-! ## Whole runs -/

/-- What holds of a request at every moment. -/
structure Duplex.Exchange (cfg : DuplexConfig ψ) (s : Duplex ψ) : Prop where
  relays : s.Relays cfg
  held : s.Held
  requests : s.Requests
  responses : s.Responses cfg
  downAt : s.DownAt cfg
  fetches : s.Fetches cfg
  upAt : s.UpAt
  answered : s.Answered

theorem exchange_start (cfg : DuplexConfig ψ) : (Duplex.start cfg).Exchange cfg where
  relays := relays_start cfg
  held := ⟨rfl, rfl, rfl, rfl⟩
  requests := by
    refine ⟨fun hd => ?_, fun hd => ?_, fun _ hd hb => ?_, fun task hmem => absurd hmem List.not_mem_nil,
      fun task hmem => absurd hmem List.not_mem_nil, fun _ task hmem => absurd hmem List.not_mem_nil⟩
    · have : DownstreamState.new cfg.bodyDone = .errored := hd
      cases hb : cfg.bodyDone <;> rw [hb] at this <;> cases this
    · refine .inl ?_
      have : (DownstreamState.new cfg.bodyDone).isDone = true := hd
      cases hb : cfg.bodyDone with
      | true => exact hb
      | false =>
        rw [hb] at this
        cases this
    · have hd' : (DownstreamState.new cfg.bodyDone).isDone = false := hd
      rw [show cfg.bodyDone = true from hb] at hd'
      cases hd'
  responses := ⟨rfl, rfl, fun hend => (by cases hend), fun hup => (by cases hup)⟩
  downAt := ⟨fun _ => ⟨rfl, rfl, rfl, rfl⟩, fun hpc => (by cases hpc), fun hpc => (by cases hpc),
    fun hpc => (by cases hpc)⟩
  fetches := ⟨rfl, fun _ hup => (by cases hup), fun task hmem => absurd hmem List.not_mem_nil,
    fun hdone => (by cases hdone), fun hdone => (by cases hdone), fun hdone => (by cases hdone)⟩
  upAt := ⟨fun _ => .inl rfl, fun _ => .inl rfl, fun hpc => (by cases hpc), fun hpc => (by cases hpc),
    fun hpc => (by cases hpc), fun hpc => (by cases hpc), fun hpc => (by cases hpc)⟩
  answered := fun hdone => (by cases hdone)

theorem exchange_step (h : s.Exchange cfg) (hstep : Duplex.Step cfg s e t) : t.Exchange cfg := by
  have hrelays := relays_step h.relays hstep
  obtain ⟨hrun, hdown | hup⟩ := hstep
  · have hframe := up_ended_frame h.fetches h.upAt hdown
    exact ⟨hrelays, held_down h.held hdown, requests_down h.requests h.downAt h.relays.piped hdown hrun,
      responses_down h.responses hdown, downAt_down hdown, hframe.1, hframe.2,
      answered_down h.answered h.relays h.held h.fetches h.upAt hdown hrun⟩
  · have hended := up_ended h.fetches h.upAt h.held h.relays.uploads h.requests h.downAt hup hrun
    exact ⟨hrelays, held_up h.held hup, requests_up h.requests hup, responses_up h.responses hup,
      downAt_up h.downAt hup, hended.1, hended.2, answered_up h.answered hup⟩

theorem exchange_of_run {es : List DuplexEvent} (h : Runs.Run (Duplex.Step cfg) (Duplex.start cfg) es s) :
    s.Exchange cfg :=
  h.invariant (fun _ _ _ => exchange_step) (exchange_start cfg)

/-! ## What is whole -/

/-- A prefix with a member that is not before the last is the whole. -/
theorem prefix_eq_of_mem {α : Type*} {as bs : List α} {a : α} (h : as <+: bs) (hmem : a ∈ as)
    (hlast : a ∉ bs.dropLast) : as = bs := by
  obtain ⟨cs, rfl⟩ := h
  cases cs using List.reverseRecOn with
  | nil => exact (List.append_nil _).symm
  | append_singleton cs c =>
    rw [← List.append_assoc, List.dropLast_concat] at hlast
    exact absurd (List.mem_append_left _ hmem) hlast

theorem filterTasks_any {P : HttpTask → Bool} (hkeeps : ∀ {state state' task task'},
    cfg.responseFilter state task = .ok (task', state') → P task' = P task) :
    ∀ {tasks tasks' : List HttpTask} {f g : ψ}, cfg.filterTasks f tasks = .ok (tasks', g) →
      tasks'.any P = tasks.any P
  | [], tasks', f, g, h => by
    cases h
    rfl
  | task :: tasks, tasks', f, g, h => by
    have h' : (cfg.responseFilter f task).bind (fun a => (cfg.filterTasks a.2 tasks).bind
        (fun b => .ok (a.1 :: b.1, b.2))) = .ok (tasks', g) := h
    cases hfirst : cfg.responseFilter f task with
    | error e =>
      rw [hfirst] at h'
      cases h'
    | ok a =>
      rw [hfirst] at h'
      have h'' : (cfg.filterTasks a.2 tasks).bind (fun b => .ok (a.1 :: b.1, b.2)) = .ok (tasks', g) := h'
      cases hrest : cfg.filterTasks a.2 tasks with
      | error e =>
        rw [hrest] at h''
        cases h''
      | ok b =>
        rw [hrest] at h''
        cases h''
        rw [List.any_cons, List.any_cons, hkeeps hfirst, filterTasks_any hkeeps hrest]

/-- What the client was written is of the same kinds as what was read of the upstream. -/
theorem wrote_any (h : s.Relays cfg) {P : HttpTask → Bool} (hkeeps : ∀ {state state' task task'},
    cfg.responseFilter state task = .ok (task', state') → P task' = P task)
    (hwrote : s.down.wrote.any P = true) : s.responses.taken.any P = true := by
  obtain ⟨relayed, f, hpre, hfiltered⟩ := h.writes.wrote
  rw [filterTasks_any hkeeps hfiltered] at hwrote
  obtain ⟨task, hmem, hP⟩ := List.any_eq_true.1 hwrote
  exact List.any_eq_true.2 ⟨task, hpre.subset hmem, hP⟩

/-- The client's side is a tunnel only of an upstream that is one. -/
theorem upgraded_of_down (h : s.Exchange cfg) (hdown : s.down.wasUpgraded = true) : s.up.wasUpgraded = true := by
  obtain ⟨hasked, hwrote⟩ := h.responses.switched hdown
  have htaken := wrote_any h.relays (fun hf => (cfg.filter_keeps hf).2.2) hwrote
  refine h.fetches.switched (cfg.sent_of_asked hasked) ?_
  obtain ⟨task, hmem, hswitches⟩ := List.any_eq_true.1 htaken
  exact List.any_eq_true.2
    ⟨task, (s.responses.taken_prefix.trans h.relays.reads.sent_prefix).subset hmem, hswitches⟩

/-- A request that is done without an error was written whole. -/
theorem whole_of_done (h : s.Exchange cfg) (hdone : s.up.requestDone = true) (hnone : s.up.sendError = none) :
    s.down.bodyDone = true ∧ s.up.written.flatten = s.down.chunks.flatten := by
  have hidle : s.up.pc.uploads = [] := by
    cases hpc : s.up.pc with
    | uploading task => exact absurd ((h.upAt.open_of_upload hpc).symm.trans hdone) Bool.false_ne_true
    | select | sending task | sendingFailure task | returned result => rfl
  have hwritten : dataOf s.requests.taken = s.up.written.flatten := by
    rw [h.relays.uploads.whole hnone, hidle]
    exact List.append_nil _
  obtain ⟨task, hmem, hcloses⟩ | ⟨hreturned, hbody, hempty⟩ := (h.fetches.request hdone).resolve_left (· hnone)
  · have hsent := s.requests.taken_prefix.subset hmem
    have hcloses' : task.closes s.down.wasUpgraded = true := by
      cases hdown : s.down.wasUpgraded with
      | true => rwa [upgraded_of_down h hdown] at hcloses
      | false =>
        rw [HttpTask.closes, Bool.and_eq_true] at hcloses
        rw [HttpTask.closes, hcloses.1]
        rfl
    obtain ⟨-, hbody, hdata⟩ := h.requests.closed task hsent hcloses'
    refine ⟨hbody, ?_⟩
    rw [← hwritten, ← hdata, prefix_eq_of_mem s.requests.taken_prefix hmem (fun hlast => ?_)]
    exact absurd ((h.requests.last task hlast).symm.trans hcloses') Bool.false_ne_true
  · refine ⟨hbody, ?_⟩
    have hdata := h.relays.piped.whole.resolve_right (fun ⟨r, hr⟩ => by rw [hreturned] at hr; cases hr)
    rw [← hwritten, ← hdata, Chan.taken_eq_sent hempty]

/-- **The upstream is shown the end of a body only when it was written the client's body whole.** -/
theorem finished_body_whole {es : List DuplexEvent} (hrun : Runs.Run (Duplex.Step cfg) (Duplex.start cfg) es s)
    (hfinished : s.up.bodyFinished = true) (hplain : s.up.wasUpgraded = false) :
    s.down.bodyDone = true ∧ s.up.written.flatten = s.down.chunks.flatten := by
  have h := exchange_of_run hrun
  obtain ⟨hdone, hnone⟩ := h.fetches.body hfinished hplain
  exact whole_of_done h hdone hnone

theorem finished_body_whole_echo :
    ∃ s, Runs.Run (Duplex.Step (.unfiltered false)) (Duplex.start (.unfiltered false)) echoRun s ∧
      s.down.bodyDone = true ∧ s.up.written.flatten = s.down.chunks.flatten := by
  obtain ⟨s, hrun, -, -, -, hfinished, hplain⟩ := echo_completes
  exact ⟨s, hrun, finished_body_whole hrun hfinished hplain⟩

/-- **What both handlers complete is a whole response, and unless an upload failed a whole request.** -/
theorem completed_exchange {es : List DuplexEvent} (hrun : Runs.Run (Duplex.Step cfg) (Duplex.start cfg) es s)
    (hcompleted : s.Completed) (hwriter : s.down.writerFinished = false)
    (hopen : ∀ task ∈ s.requests.sent, task.closes true = false) :
    (∃ f, cfg.filterTasks cfg.filterStart s.up.read = .ok (s.down.wrote, f)) ∧
      s.up.read.any HttpTask.isEnd = true ∧ s.up.read.any HttpTask.isFailed = false ∧
      (s.up.sendError = none → s.down.bodyDone = true ∧ s.up.written.flatten = s.down.chunks.flatten) := by
  have h := exchange_of_run hrun
  obtain ⟨hup, hdown⟩ := hcompleted
  have hfiltered : cfg.filterTasks cfg.filterStart s.responses.taken = .ok (s.down.wrote, s.down.filter) := by
    have hwhole := h.relays.writes.whole.resolve_right (fun ⟨r, hr⟩ => by rw [hdown] at hr; cases hr)
    rwa [hdown, show DownstreamPc.writes (.returned (.ok ())) = [] from rfl, List.append_nil] at hwhole
  have htaken : s.responses.taken = s.up.read ∧ s.up.read.any HttpTask.isEnd = true := by
    have hdone := (Bool.and_eq_true_iff.1 (h.downAt.finished hdown).2).1
    obtain hend | hfin | ⟨hall, hend, -⟩ | ⟨task, hmem, hcloses⟩ :=
      (h.answered hdone).resolve_right (fun ⟨r, hr⟩ => by rw [hdown] at hr; cases hr)
    · have hpre := s.responses.taken_prefix.trans h.relays.reads.sent_prefix
      obtain ⟨task, hmem, hends⟩ :=
        List.any_eq_true.1 (wrote_any h.relays (fun hf => (cfg.filter_keeps hf).1) hend)
      refine ⟨prefix_eq_of_mem hpre hmem (fun hlast => ?_), List.any_eq_true.2 ⟨task, hpre.subset hmem, hends⟩⟩
      exact absurd ((h.fetches.last task hlast).symm.trans hends) Bool.false_ne_true
    · exact absurd (hwriter.symm.trans hfin) Bool.false_ne_true
    · exact ⟨hall, hend⟩
    · exact absurd ((hopen task hmem).symm.trans hcloses) Bool.false_ne_true
  have hclean : s.up.read.any HttpTask.isFailed = false := by
    rw [← htaken.1, ← filterTasks_any (fun hf => (cfg.filter_keeps hf).2.1) hfiltered]
    exact h.responses.clean
  refine ⟨⟨_, htaken.1 ▸ hfiltered⟩, htaken.2, hclean, fun hnone => ?_⟩
  obtain ⟨hdone, -⟩ := (h.upAt.finished hup).resolve_right (fun hf => absurd (hclean.symm.trans hf) Bool.false_ne_true)
  exact whole_of_done h hdone hnone

theorem completed_exchange_echo :
    ∃ s, Runs.Run (Duplex.Step (.unfiltered false)) (Duplex.start (.unfiltered false)) echoRun s ∧
      (∃ f, (DuplexConfig.unfiltered false).filterTasks () s.up.read = .ok (s.down.wrote, f)) ∧
      s.up.read.any HttpTask.isEnd = true ∧ s.up.read.any HttpTask.isFailed = false ∧
      (s.up.sendError = none → s.down.bodyDone = true ∧ s.up.written.flatten = s.down.chunks.flatten) := by
  obtain ⟨s, hrun, hcompleted, hwriter, hsent, -⟩ := echo_completes
  refine ⟨s, hrun, completed_exchange hrun hcompleted hwriter ?_⟩
  rw [hsent]
  decide

/-! ## What ends a tunnel -/

/-- **Once the upstream has switched, no end that was sent before closes the tunnel**: its request is done by a failed
upload, by the last of the upgraded bytes or by a client's side that is done, its response by these or by its end. -/
theorem tunnel_ends {es : List DuplexEvent} (hrun : Runs.Run (Duplex.Step cfg) (Duplex.start cfg) es s)
    (hup : s.up.wasUpgraded = true) :
    (s.up.requestDone = true → s.up.sendError ≠ none ∨ s.PipeEnded ∨
      ∃ data, .upgradedBody data true ∈ s.requests.taken) ∧
    (s.up.responseDone = true → s.up.read.any HttpTask.isEnd = true ∨ s.PipeEnded ∨
      ∃ data, .upgradedBody data true ∈ s.requests.taken) := by
  have h := exchange_of_run hrun
  have hended : s.RequestEnded → s.PipeEnded ∨ ∃ data, .upgradedBody data true ∈ s.requests.taken := by
    rintro (⟨task, hmem, hcloses⟩ | hpipe)
    · rw [HttpTask.closes, hup, Bool.and_eq_true] at hcloses
      obtain ⟨hends, hupgraded⟩ := hcloses
      cases task with
      | upgradedBody data ends =>
        cases ends with
        | true => exact .inr ⟨data, hmem⟩
        | false => cases hends
      | header | body | trailer | done | failed => cases hupgraded
    · exact .inl hpipe
  exact ⟨fun hdone => (h.fetches.request hdone).imp id hended,
    fun hdone => (h.fetches.response hdone).imp id (fun hclosed => hended hclosed.2.2)⟩

/-- A head that switches, bytes of the client's and their end. -/
def tunnelRun : List DuplexEvent :=
  [.start, .read (.ok (.header ⟨101, ⟨[]⟩⟩ false)), .sent, .tasks, .wrote (.ok false) false,
    .body (.ok (some [104])) false, .body (.ok none) true, .take, .uploaded (.ok ()), .take, .uploaded (.ok ())]

theorem tunnel_ends_closed :
    ∃ s, Runs.Run (Duplex.Step (.unfiltered true)) (Duplex.start (.unfiltered true)) tunnelRun s ∧ s.Completed ∧
      (s.up.requestDone = true → s.up.sendError ≠ none ∨ s.PipeEnded ∨
        ∃ data, .upgradedBody data true ∈ s.requests.taken) ∧
      (s.up.responseDone = true → s.up.read.any HttpTask.isEnd = true ∨ s.PipeEnded ∨
        ∃ data, .upgradedBody data true ∈ s.requests.taken) := by
  obtain ⟨s, hs, hcompleted, hup⟩ : ∃ s, tunnelRun.foldlM (Duplex.next (.unfiltered true))
      (Duplex.start (.unfiltered true)) = some s ∧ s.Completed ∧ s.up.wasUpgraded = true := ⟨_, rfl, ⟨rfl, rfl⟩, rfl⟩
  exact ⟨s, run_of_next hs, hcompleted, tunnel_ends (run_of_next hs) hup⟩

/-! ## What the handlers wait for -/

/-- The upstream handler waits for its connection: for the response, or to upload. -/
def Duplex.WaitsForUpstream (s : Duplex ψ) : Prop :=
  (s.up.pc = .select ∧ s.up.responseDone = false) ∨ ∃ task, s.up.pc = .uploading task

/-- The downstream handler waits for its connection: to write, or for the client's body with a place for it. -/
def Duplex.WaitsForClient (s : Duplex ψ) : Prop :=
  (∃ tasks, s.down.pc = .writing tasks) ∨ s.down.pc = .select true ∧ s.down.downstreamState.isDone = false ∧
    s.down.bodyDone = false ∧ s.requests.HasRoom

/-- What happens between the handlers alone. -/
def DuplexEvent.internal : DuplexEvent → Bool
  | .start => true
  | .permit => true
  | .tasks => true
  | .upstreamGone => true
  | .sent => true
  | .take => true
  | _ => false

theorem up_takes (cfg : DuplexConfig ψ) (hpc : s.up.pc = .select) (hmore : s.up.requestDone = false)
    (hready : s.requests.waiting ≠ [] ∨ s.requests.senderAlive = false) : ∃ t, UpstreamStep cfg s .take t := by
  cases hrecv : s.requests.recv with
  | some received => exact ⟨_, .take hpc hmore hrecv⟩
  | none =>
    have hempty := (Chan.recv_eq_none_iff _).1 hrecv
    exact ⟨_, .takeEnd hpc hmore hempty (hready.resolve_left (· hempty))⟩

theorem up_sends (cfg : DuplexConfig ψ) (hpc : s.up.pc.sends ≠ [])
    (hready : s.responses.HasRoom ∨ s.responses.receiverAlive = false) :
    ∃ t, UpstreamStep cfg s .sent t := by
  cases halive : s.responses.receiverAlive with
  | true =>
    have room := hready.resolve_right (fun hgone => absurd (hgone.symm.trans halive) Bool.false_ne_true)
    cases hup : s.up.pc with
    | sending task => exact ⟨_, .sent hup room halive⟩
    | sendingFailure task => exact ⟨_, .failureSent hup room halive⟩
    | select | uploading task | returned result =>
      rw [hup] at hpc
      exact absurd rfl hpc
  | false =>
    cases hup : s.up.pc with
    | sending task => exact ⟨_, .sendLost hup halive⟩
    | sendingFailure task => exact ⟨_, .failureLost hup halive⟩
    | select | uploading task | returned result =>
      rw [hup] at hpc
      exact absurd rfl hpc

theorem down_starts (cfg : DuplexConfig ψ) (hpc : s.down.pc = .starting) (hfresh : s.requests.sent = []) :
    ∃ t, DownstreamStep cfg s .start t := by
  have room : s.requests.HasRoom := by
    unfold Chan.HasRoom
    rw [hfresh]
    exact Nat.lt_of_lt_of_le (by decide : 0 < taskBufferSize) (Nat.le_add_left _ _)
  cases halive : s.requests.receiverAlive with
  | true => exact ⟨_, .start hpc room halive⟩
  | false =>
    cases hsends : (cfg.retryBuffer.isSome || cfg.bodyEmpty) with
    | true => exact ⟨_, .startRefused hpc halive hsends⟩
    | false => exact ⟨_, .startWithout hpc halive hsends⟩

theorem down_takes (cfg : DuplexConfig ψ) {permit : Bool} (hpc : s.down.pc = .select permit)
    (hmore : s.down.responseState.upstreamDone = false) (hwaits : s.responses.waiting ≠ []) :
    ∃ t, DownstreamStep cfg s .tasks t := by
  cases hfiltered : cfg.filterTasks s.down.filter s.responses.waiting with
  | ok filtered => exact ⟨_, .tasks hpc hmore hwaits hfiltered⟩
  | error e => exact ⟨_, .tasksRefused hpc hmore hwaits hfiltered⟩

/-- With the client's side done, the upstream handler goes on alone. -/
theorem moves_of_returned (h : s.Exchange cfg) (hrun : s.aborted = false) (hmore : ¬s.Completed)
    (hdown : s.down.pc = .returned (.ok ())) (hwaits : ¬s.WaitsForUpstream) :
    ∃ e t, UpstreamStep cfg s e t ∧ e.internal = true := by
  have hsender : s.requests.senderAlive = false := by
    rw [h.held.requestSender, hdown]
    rfl
  have hreceiver : s.responses.receiverAlive = false := by
    rw [h.held.responseReceiver, hdown]
    rfl
  cases hup : s.up.pc with
  | select =>
    have hresponse : s.up.responseDone = true := by
      by_contra hopen
      exact hwaits (.inl ⟨hup, Bool.eq_false_iff.2 hopen⟩)
    have hrequest := (h.upAt.open_of_select hup).resolve_right
      (fun hopen => absurd (hopen.symm.trans hresponse) Bool.false_ne_true)
    obtain ⟨t, ht⟩ := up_takes cfg hup hrequest (.inr hsender)
    exact ⟨_, t, ht, rfl⟩
  | sending task | sendingFailure task =>
    obtain ⟨t, ht⟩ := up_sends cfg (by rw [hup]; exact List.cons_ne_nil _ _) (.inr hreceiver)
    exact ⟨_, t, ht, rfl⟩
  | uploading task => exact absurd (.inr ⟨task, hup⟩) hwaits
  | returned result =>
    cases result with
    | ok _ => exact absurd ⟨hup, hdown⟩ hmore
    | error r => exact absurd hup (up_not_failed hrun r)

/-- A client's side that still reads the body without waiting for the client waits for a place in the pipe. -/
theorem down_permits (h : s.Exchange cfg) {permit : Bool} (hdown : s.down.pc = .select permit)
    (hreading : s.down.downstreamState.isDone = false) (hbody : s.down.bodyDone = false) (hclient : ¬s.WaitsForClient)
    (hready : s.requests.HasRoom ∨ s.requests.receiverAlive = false) : ∃ t, DownstreamStep cfg s .permit t := by
  cases permit with
  | true => exact absurd (.inr ⟨hdown, hreading, hbody, h.downAt.room hdown⟩) hclient
  | false => exact ⟨_, .permit hdown (decide_eq_true (DownstreamState.not_done_iff.1 hreading)) hready⟩

/-- All that was read of the upstream was written, when nothing is on its way. -/
theorem wrote_of_idle (h : s.Exchange cfg) {permit : Bool} (hdown : s.down.pc = .select permit)
    (hup : s.up.pc = .select) (hempty : s.responses.waiting = []) :
    s.down.wrote.any HttpTask.isEnd = s.up.read.any HttpTask.isEnd := by
  have halive : s.responses.receiverAlive = true := by
    rw [h.held.responseReceiver, hdown]
    rfl
  have hread := h.relays.reads.whole halive
  have hwrote := h.relays.writes.whole.resolve_right (fun ⟨r, hr⟩ => by rw [hdown] at hr; cases hr)
  rw [hup, show UpstreamPc.sends .select = [] from rfl, List.append_nil, ← Chan.taken_eq_sent hempty] at hread
  rw [hdown, show DownstreamPc.writes (.select permit) = [] from rfl, List.append_nil, hread] at hwrote
  exact filterTasks_any (fun hf => (cfg.filter_keeps hf).1) hwrote

/-- A response that the client's side has not seen the end of is on its way. -/
theorem moves_of_unanswered (h : s.Exchange cfg) {permit : Bool} (hdown : s.down.pc = .select permit)
    (hmore : s.down.responseState.upstreamDone = false)
    (htunnel : s.down.wasUpgraded = true → s.down.bodyDone = false) (hwaits : ¬s.WaitsForUpstream)
    (hclient : ¬s.WaitsForClient) :
    ∃ e t, (DownstreamStep cfg s e t ∨ UpstreamStep cfg s e t) ∧ e.internal = true := by
  have hreceiver : s.responses.receiverAlive = true := by
    rw [h.held.responseReceiver, hdown]
    rfl
  by_cases hempty : s.responses.waiting = []
  case neg =>
    obtain ⟨t, ht⟩ := down_takes cfg hdown hmore hempty
    exact ⟨_, t, .inl ht, rfl⟩
  have room := Chan.hasRoom_of_waiting_nil (by decide : 0 < taskBufferSize) hempty
  cases hup : s.up.pc with
  | returned result =>
    refine ⟨_, _, .inl (.upstreamGone hdown hmore hempty ?_), rfl⟩
    rw [h.held.responseSender, hup]
    rfl
  | sending task | sendingFailure task =>
    obtain ⟨t, ht⟩ := up_sends cfg (by rw [hup]; exact List.cons_ne_nil _ _) (.inl room)
    exact ⟨_, t, .inr ht, rfl⟩
  | uploading task => exact absurd (.inr ⟨task, hup⟩) hwaits
  | select =>
    have hresponse : s.up.responseDone = true := by
      by_contra hopen
      exact hwaits (.inl ⟨hup, Bool.eq_false_iff.2 hopen⟩)
    have hrequest := (h.upAt.open_of_select hup).resolve_right
      (fun hopen => absurd (hopen.symm.trans hresponse) Bool.false_ne_true)
    by_cases hpipe : s.requests.waiting = []
    case neg =>
      obtain ⟨t, ht⟩ := up_takes cfg hup hrequest (.inl hpipe)
      exact ⟨_, t, .inr ht, rfl⟩
    have hread : s.up.read.any HttpTask.isEnd = true :=
      (h.fetches.response hresponse).resolve_right
        (fun hclosed => absurd (hrequest.symm.trans hclosed.1) Bool.false_ne_true)
    -- The end was written with the head of a tunnel, which the client's bytes keep open.
    have hupgraded : s.down.wasUpgraded = true := by
      rw [← wrote_of_idle h hdown hup hempty] at hread
      exact (h.responses.ended hread).resolve_left (fun hdone => absurd (hmore.symm.trans hdone) Bool.false_ne_true)
    have hbody := htunnel hupgraded
    have halive : s.requests.receiverAlive = true := by
      rw [h.held.requestReceiver, hup]
      rfl
    have hreading : s.down.downstreamState.isDone = false := by
      by_contra hdone
      obtain hover | hlost := h.requests.done (Bool.eq_true_of_not_eq_false hdone)
      · exact absurd (hbody.symm.trans hover) Bool.false_ne_true
      · exact absurd (hlost.symm.trans halive) Bool.false_ne_true
    have hroom := Chan.hasRoom_of_waiting_nil (by decide : 0 < taskBufferSize) hpipe
    obtain ⟨t, ht⟩ := down_permits h hdown hreading hbody hclient (.inl hroom)
    exact ⟨_, t, .inl ht, rfl⟩

/-- With an end of the response written, the upstream handler has nothing left to send. -/
theorem nothing_left (h : s.Exchange cfg) (hend : s.down.wrote.any HttpTask.isEnd = true)
    (halive : s.responses.receiverAlive = true) : s.up.pc.sends = [] := by
  have hwhole := h.relays.reads.whole halive
  obtain ⟨task, hmem, hends⟩ := List.any_eq_true.1 (wrote_any h.relays (fun hf => (cfg.filter_keeps hf).1) hend)
  have htaken : s.responses.taken = s.up.read :=
    prefix_eq_of_mem (s.responses.taken_prefix.trans h.relays.reads.sent_prefix) hmem
      (fun hlast => absurd ((h.fetches.last task hlast).symm.trans hends) Bool.false_ne_true)
  have hsent : s.responses.sent = s.up.read :=
    h.relays.reads.sent_prefix.eq_of_length_le (htaken ▸ s.responses.taken_prefix.length_le)
  rw [hsent] at hwhole
  exact List.append_right_eq_self.1 hwhole

/-- A client's side that knows the response's end still reads the request. -/
theorem moves_of_answered (h : s.Exchange cfg) {permit : Bool} (hdown : s.down.pc = .select permit)
    (hdone : s.down.responseState.upstreamDone = true) (hwriter : s.down.writerFinished = false)
    (htunnel : s.down.wasUpgraded = true → s.down.bodyDone = false) (hwaits : ¬s.WaitsForUpstream)
    (hclient : ¬s.WaitsForClient) :
    ∃ e t, (DownstreamStep cfg s e t ∨ UpstreamStep cfg s e t) ∧ e.internal = true := by
  have hreading : s.down.downstreamState.isDone = false := by
    refine (h.downAt.open_of_select hdown).resolve_right (fun hopen => ?_)
    rw [ResponseState.isDone, hdone, h.responses.cached] at hopen
    cases hopen
  have hsender : s.requests.senderAlive = true := by
    rw [h.held.requestSender, hdown]
    rfl
  have hreceiver : s.responses.receiverAlive = true := by
    rw [h.held.responseReceiver, hdown]
    rfl
  have hbody : s.down.bodyDone = false := by
    by_contra hover
    have hover' := Bool.eq_true_of_not_eq_false hover
    exact hover (htunnel (h.requests.tunnel hsender hreading hover'))
  by_cases hready : s.requests.HasRoom ∨ s.requests.receiverAlive = false
  case pos =>
    obtain ⟨t, ht⟩ := down_permits h hdown hreading hbody hclient hready
    exact ⟨_, t, .inl ht, rfl⟩
  obtain ⟨hfull, halive⟩ := not_or.1 hready
  have hpipe : s.requests.waiting ≠ [] :=
    fun hempty => hfull (Chan.hasRoom_of_waiting_nil (by decide : 0 < taskBufferSize) hempty)
  have hsends : s.up.pc.sends = [] := by
    obtain hend | hfin | ⟨-, -, hreturned⟩ | ⟨task, hmem, hcloses⟩ :=
      (h.answered hdone).resolve_right (fun ⟨r, hr⟩ => by rw [hdown] at hr; cases hr)
    · exact nothing_left h hend hreceiver
    · exact absurd (hwriter.symm.trans hfin) Bool.false_ne_true
    · rw [hreturned]
      rfl
    · rw [HttpTask.closes, Bool.and_eq_true] at hcloses
      have hup : s.down.wasUpgraded = true := by
        by_contra hplain
        exact absurd ((h.requests.plain (Bool.eq_false_iff.2 hplain) task hmem).symm.trans hcloses.2) Bool.false_ne_true
      have hclosed := h.requests.closed task hmem (by rw [HttpTask.closes, hup, hcloses.1]; exact hcloses.2)
      exact absurd (hreading.symm.trans hclosed.1) Bool.false_ne_true
  cases hup : s.up.pc with
  | select =>
    have hrequest : s.up.requestDone = false := by
      refine (h.upAt.open_of_select hup).elim id (fun hopen => absurd (.inl ⟨hup, hopen⟩) hwaits)
    obtain ⟨t, ht⟩ := up_takes cfg hup hrequest (.inl hpipe)
    exact ⟨_, t, .inr ht, rfl⟩
  | sending task | sendingFailure task =>
    rw [hup] at hsends
    cases hsends
  | uploading task => exact absurd (.inr ⟨task, hup⟩) hwaits
  | returned result =>
    rw [h.held.requestReceiver, hup] at halive
    exact absurd rfl halive

/-- **The handlers never wait for each other only**: a running request whose body writer does not finish before the
response, and of a tunnel the client's bytes go on, has a step between the handlers or waits for a connection. -/
theorem never_deadlocked {es : List DuplexEvent} (hrun : Runs.Run (Duplex.Step cfg) (Duplex.start cfg) es s)
    (hrunning : s.aborted = false) (hmore : ¬s.Completed) (hwriter : s.down.writerFinished = false)
    (htunnel : s.down.wasUpgraded = true → s.down.bodyDone = false) :
    (∃ e t, Duplex.Step cfg s e t ∧ e.internal = true) ∨ s.WaitsForUpstream ∨ s.WaitsForClient := by
  have h := exchange_of_run hrun
  by_contra hnot
  obtain ⟨hstuck, hwaits⟩ := not_or.1 hnot
  obtain ⟨hup, hclient⟩ := not_or.1 hwaits
  have hmoves : (∃ e t, (DownstreamStep cfg s e t ∨ UpstreamStep cfg s e t) ∧ e.internal = true) → False :=
    fun ⟨e, t, hstep, hinternal⟩ => hstuck ⟨e, t, ⟨hrunning, hstep⟩, hinternal⟩
  cases hdown : s.down.pc with
  | starting =>
    obtain ⟨t, ht⟩ := down_starts cfg hdown (h.downAt.fresh hdown).1
    exact hmoves ⟨_, t, .inl ht, rfl⟩
  | select permit =>
    cases hdone : s.down.responseState.upstreamDone with
    | false => exact hmoves (moves_of_unanswered h hdown hdone htunnel hup hclient)
    | true => exact hmoves (moves_of_answered h hdown hdone hwriter htunnel hup hclient)
  | writing tasks => exact hclient (.inl ⟨tasks, hdown⟩)
  | returned result =>
    cases result with
    | ok _ =>
      obtain ⟨e, t, ht, hinternal⟩ := moves_of_returned h hrunning hmore hdown hup
      exact hmoves ⟨e, t, .inr ht, hinternal⟩
    | error r => exact down_not_failed hrunning r hdown

/-! ## How long they go on alone -/

def UpstreamPc.rank : UpstreamPc → Nat
  | .select => 1
  | .sending _ => 2
  | .sendingFailure _ => 2
  | .uploading _ => 0
  | .returned _ => 0

def DownstreamHandler.rank (d : DownstreamHandler ψ) : Nat :=
  match d.pc with
  | .starting => 6
  | .select permit => 1 + cond d.responseState.upstreamDone 0 2 + cond (!permit && d.downstreamState.isReading) 1 0
  | .writing _ => 0
  | .returned _ => 0

/-- How many steps the handlers can take at most before one of them waits for its connection. -/
def Duplex.rank (s : Duplex ψ) : Nat := s.up.pc.rank + s.down.rank

theorem rank_of_select {d : DownstreamHandler ψ} {permit : Bool} (hpc : d.pc = .select permit) :
    d.rank = 1 + cond d.responseState.upstreamDone 0 2 + cond (!permit && d.downstreamState.isReading) 1 0 := by
  unfold DownstreamHandler.rank
  rw [hpc]

theorem UpstreamPc.rank_le (pc : UpstreamPc) : pc.rank ≤ 2 := by
  cases pc with
  | select => exact Nat.le_succ 1
  | sending task | sendingFailure task => exact Nat.le_refl 2
  | uploading task | returned result => exact Nat.zero_le 2

theorem cond_le (b : Bool) (n : Nat) : cond b n 0 ≤ n := by
  cases b with
  | false => exact Nat.zero_le _
  | true => exact Nat.le_refl _

theorem rank_le (d : DownstreamHandler ψ) : d.rank ≤ 6 := by
  unfold DownstreamHandler.rank
  split
  · exact Nat.le_refl _
  · rename_i permit _
    have := cond_le (!permit && d.downstreamState.isReading) 1
    cases d.responseState.upstreamDone with
    | false => show 1 + 2 + _ ≤ 6; omega
    | true => show 1 + 0 + _ ≤ 6; omega
  · exact Nat.zero_le _
  · exact Nat.zero_le _

theorem rank_downTop_le (s : Duplex ψ) : s.downTop.down.rank ≤ 2 + cond s.down.responseState.upstreamDone 0 2 := by
  obtain ⟨-, -, htop⟩ | ⟨-, htop⟩ := s.downTop_cases
  · rw [htop]
    exact Nat.zero_le _
  · have hrank := rank_of_select (congrArg (fun s : Duplex ψ => s.down.pc) htop)
    have := cond_le (!s.requests.permits && s.downTop.down.downstreamState.isReading) 1
    rw [hrank, htop] at *
    show 1 + cond s.down.responseState.upstreamDone 0 2 + _ ≤ _
    omega

theorem rank_upTop_le (s : Duplex ψ) : s.upTop.up.pc.rank ≤ 1 := by
  obtain ⟨-, -, htop⟩ | ⟨-, htop⟩ := s.upTop_cases
  · rw [htop]
    exact Nat.zero_le _
  · rw [htop]
    exact Nat.le_refl _

theorem rank_up (hstep : UpstreamStep cfg s e t) (hinternal : e.internal = true) : t.up.pc.rank < s.up.pc.rank := by
  cases hstep with
  | read | readError | uploaded | uploadError => cases hinternal
  | sent hpc room alive =>
    rw [hpc]
    exact Nat.lt_succ_of_le (rank_upTop_le _)
  | sendLost hpc gone =>
    rw [hpc]
    unfold onSendLost
    split
    · exact Nat.lt_succ_of_le (rank_upTop_le _)
    · exact Nat.succ_pos _
  | failureSent hpc | failureLost hpc | take hpc | takeEnd hpc =>
    rw [hpc]
    exact Nat.succ_pos _

theorem rank_down (hstep : DownstreamStep cfg s e t) (hinternal : e.internal = true) : t.down.rank < s.down.rank := by
  have hstarting : s.down.pc = .starting → s.down.rank = 6 := by
    intro hpc
    unfold DownstreamHandler.rank
    rw [hpc]
  have hreturned : ∀ {u : Duplex ψ} {r : Except ProxyError Unit}, (u.downReturn r).down.rank = 0 := rfl
  have htop : ∀ u : Duplex ψ, u.downTop.down.rank < 6 := by
    intro u
    have := rank_downTop_le u
    have : cond u.down.responseState.upstreamDone 0 2 ≤ 2 := by cases u.down.responseState.upstreamDone <;> decide
    omega
  cases hstep with
  | start hpc room alive =>
    rw [hstarting hpc]
    obtain ⟨-, h⟩ | ⟨seen, h | ⟨-, h⟩ | ⟨task, -, -, h⟩⟩ := onStart_cases cfg s room
    · rw [h]
      exact htop _
    · rw [h]
      exact Nat.succ_pos _
    · rw [h]
      exact htop _
    · rw [h]
      exact htop _
  | startRefused hpc =>
    rw [hstarting hpc]
    exact Nat.succ_pos _
  | startWithout hpc =>
    rw [hstarting hpc]
    exact htop _
  | body | bodyError | wrote | writeError => cases hinternal
  | permit hpc reading ready =>
    have hmoves : (!s.requests.permits &&
        (s.down.downstreamState.maybeFinished (!s.requests.receiverAlive)).isReading) = false := by
      cases halive : s.requests.receiverAlive with
      | false => exact Bool.and_false _
      | true =>
        have hroom := ready.resolve_right (fun hgone => absurd (hgone.symm.trans halive) Bool.false_ne_true)
        rw [Chan.permits, halive, decide_eq_true hroom]
        rfl
    rw [rank_of_select hpc, reading, onPermit]
    obtain ⟨-, -, h⟩ | ⟨-, h⟩ := downTop_cases ({ s with down := { s.down with
      downstreamState := s.down.downstreamState.maybeFinished (!s.requests.receiverAlive) } })
    · rw [h, hreturned]
      omega
    · rw [h, rank_of_select rfl, hmoves]
      exact Nat.lt_succ_self _
  | tasks hpc | tasksRefused hpc =>
    rw [rank_of_select hpc]
    exact Nat.lt_of_lt_of_le Nat.one_pos (by omega)
  | upstreamGone hpc more empty gone =>
    rw [rank_of_select hpc, more]
    exact Nat.lt_of_le_of_lt (rank_downTop_le _) (by show 2 + 0 < 1 + 2 + _; omega)

theorem rank_step (hstep : Duplex.Step cfg s e t) (hinternal : e.internal = true) : t.rank < s.rank := by
  unfold Duplex.rank
  obtain ⟨-, hdown | hup⟩ := hstep
  · rw [hdown.keeps.up]
    exact Nat.add_lt_add_left (rank_down hdown hinternal) _
  · rw [hup.keeps.down]
    exact Nat.add_lt_add_right (rank_up hup hinternal) _

/-- What the handlers do alone tells neither of the client's body nor of its connection's writer. -/
theorem internal_keeps (hstep : Duplex.Step cfg s e t) (hinternal : e.internal = true) :
    t.down.writerFinished = s.down.writerFinished ∧ t.down.wasUpgraded = s.down.wasUpgraded ∧
      t.down.bodyDone = s.down.bodyDone := by
  have htop : ∀ u : Duplex ψ, u.downTop.down.writerFinished = u.down.writerFinished ∧
      u.downTop.down.wasUpgraded = u.down.wasUpgraded ∧ u.downTop.down.bodyDone = u.down.bodyDone := by
    intro u
    obtain ⟨-, -, h⟩ | ⟨-, h⟩ := u.downTop_cases
    · rw [h]
      exact ⟨rfl, rfl, rfl⟩
    · rw [h]
      exact ⟨rfl, rfl, rfl⟩
  obtain ⟨-, hdown | hup⟩ := hstep
  · cases hdown with
    | start hpc room alive =>
      obtain ⟨-, h⟩ | ⟨seen, h | ⟨-, h⟩ | ⟨task, -, -, h⟩⟩ := onStart_cases cfg s room
      · rw [h]
        exact htop _
      · rw [h]
        exact ⟨rfl, rfl, rfl⟩
      · rw [h]
        exact htop _
      · rw [h]
        exact htop _
    | startRefused | tasks | tasksRefused => exact ⟨rfl, rfl, rfl⟩
    | startWithout | permit | upstreamGone => exact htop _
    | body | bodyError | wrote | writeError => cases hinternal
  · rw [hup.keeps.down]
    exact ⟨rfl, rfl, rfl⟩

/-- **The handlers settle**: whichever steps they take alone there are at most eight, and when they can take no
more they have returned or one waits for its connection. -/
theorem handlers_settle {es is : List DuplexEvent} (hrun : Runs.Run (Duplex.Step cfg) (Duplex.start cfg) es s)
    (hwriter : s.down.writerFinished = false) (htunnel : s.down.wasUpgraded = true → s.down.bodyDone = false)
    (halone : Runs.Run (Duplex.Step cfg) s is t) (hinternal : ∀ e ∈ is, e.internal = true) :
    is.length ≤ 8 ∧ ((∃ e u, Duplex.Step cfg t e u ∧ e.internal = true) ∨ t.aborted = true ∨ t.Completed ∨
      t.WaitsForUpstream ∨ t.WaitsForClient) := by
  have hbound : ∀ {s t : Duplex ψ} {is : List DuplexEvent}, Runs.Run (Duplex.Step cfg) s is t →
      (∀ e ∈ is, e.internal = true) → is.length + t.rank ≤ s.rank ∧ t.down.writerFinished = s.down.writerFinished ∧
        t.down.wasUpgraded = s.down.wasUpgraded ∧ t.down.bodyDone = s.down.bodyDone := by
    intro s t is h
    induction h with
    | nil s => exact fun _ => ⟨by rw [List.length_nil, Nat.zero_add], rfl, rfl, rfl⟩
    | cons hstep _ ih =>
      intro hall
      have hfirst := hall _ List.mem_cons_self
      obtain ⟨hlength, hw, hu, hb⟩ := ih (fun e he => hall e (List.mem_cons_of_mem _ he))
      obtain ⟨hw', hu', hb'⟩ := internal_keeps hstep hfirst
      refine ⟨?_, hw.trans hw', hu.trans hu', hb.trans hb'⟩
      have := rank_step hstep hfirst
      rw [List.length_cons]
      omega
  obtain ⟨hlength, hw, hu, hb⟩ := hbound halone hinternal
  constructor
  · have hup := s.up.pc.rank_le
    have hdown := rank_le s.down
    unfold Duplex.rank at hlength
    omega
  · by_cases hrunning : t.aborted = true
    · exact .inr (.inl hrunning)
    · by_cases hmore : t.Completed
      · exact .inr (.inr (.inl hmore))
      · have := never_deadlocked (hrun.append halone) (Bool.eq_false_iff.2 hrunning) hmore (hw.trans hwriter)
          (by rw [hu, hb]; exact htunnel)
        exact this.imp id (fun hwaits => .inr (.inr hwaits))

theorem handlers_settle_echo :
    ∃ s t, Runs.Run (Duplex.Step (.unfiltered false)) (Duplex.start (.unfiltered false)) (echoRun.take 5) s ∧
      Runs.Run (Duplex.Step (.unfiltered false)) s [.sent, .tasks] t ∧ [DuplexEvent.sent, .tasks].length ≤ 8 ∧
      ((∃ e u, Duplex.Step (.unfiltered false) t e u ∧ e.internal = true) ∨ t.aborted = true ∨ t.Completed ∨
        t.WaitsForUpstream ∨ t.WaitsForClient) := by
  obtain ⟨s, t, hs, ht, hwriter, hplain⟩ : ∃ s t, (echoRun.take 5).foldlM (Duplex.next (.unfiltered false))
      (Duplex.start (.unfiltered false)) = some s ∧
      [.sent, .tasks].foldlM (Duplex.next (.unfiltered false)) s = some t ∧ s.down.writerFinished = false ∧
      s.down.wasUpgraded = false := ⟨_, _, rfl, rfl, rfl, rfl⟩
  have htunnel : s.down.wasUpgraded = true → s.down.bodyDone = false := fun hup => by rw [hplain] at hup; cases hup
  exact ⟨s, t, run_of_next hs, run_of_next ht,
    handlers_settle (run_of_next hs) hwriter htunnel (run_of_next ht) (by decide)⟩

end Zaphyl
