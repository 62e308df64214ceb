import Zaphyl.DuplexRelay
/-!
# DuplexEnds — how each side of the duplex comes to its end

The request ends with a task that closes it, the last in the pipe and sent once the client's body is done; the response
ends with the last task that was read.  A plain end that was sent before the head of a tunnel closes nothing after it.
-/
namespace Zaphyl

open Mpsc Duplex

variable {ψ : Type} {cfg : DuplexConfig ψ} {s t : Duplex ψ} {e : DuplexEvent}

/-! ## Who is there -/

def UpstreamPc.hasReturned : UpstreamPc → Bool
  | .returned _ => true
  | _ => false

def DownstreamPc.hasReturned : DownstreamPc → Bool
  | .returned _ => true
  | _ => false

/-- A handler holds its ends of the pipes until it returns. -/
structure Duplex.Held (s : Duplex ψ) : Prop where
  requestSender : s.requests.senderAlive = !s.down.pc.hasReturned
  requestReceiver : s.requests.receiverAlive = !s.up.pc.hasReturned
  responseSender : s.responses.senderAlive = !s.up.pc.hasReturned
  responseReceiver : s.responses.receiverAlive = !s.down.pc.hasReturned

theorem held_downTop (h : s.Held) (hpc : s.down.pc.hasReturned = false) : s.downTop.Held := by
  obtain ⟨-, -, htop⟩ | ⟨-, htop⟩ := s.downTop_cases
  · rw [htop]
    exact ⟨rfl, h.requestReceiver, h.responseSender, rfl⟩
  · rw [htop]
    exact ⟨h.requestSender.trans (by rw [hpc]; rfl), h.requestReceiver, h.responseSender,
      h.responseReceiver.trans (by rw [hpc]; rfl)⟩

theorem held_upTop (h : s.Held) (hpc : s.up.pc.hasReturned = false) : s.upTop.Held := by
  obtain ⟨-, -, htop⟩ | ⟨-, htop⟩ := s.upTop_cases
  · rw [htop]
    exact ⟨h.requestSender, rfl, rfl, h.responseReceiver⟩
  · rw [htop]
    exact ⟨h.requestSender, h.requestReceiver.trans (by rw [hpc]; rfl), h.responseSender.trans (by rw [hpc]; rfl),
      h.responseReceiver⟩

theorem held_down (h : s.Held) (hstep : DownstreamStep cfg s e t) : t.Held := by
  have hreturn : ∀ {u : Duplex ψ} (r : Except ProxyError Unit), u.up = s.up → u.requests.receiverAlive =
      s.requests.receiverAlive → u.responses.senderAlive = s.responses.senderAlive → (u.downReturn r).Held := by
    intro u r hup hreceiver hsender
    refine ⟨rfl, ?_, ?_, rfl⟩
    · exact hreceiver.trans (h.requestReceiver.trans (by rw [← hup]; rfl))
    · exact hsender.trans (h.responseSender.trans (by rw [← hup]; rfl))
  have hmid : ∀ {down : DownstreamHandler ψ}, down.pc = s.down.pc → ({ s with down := down } : Duplex ψ).Held := by
    intro down hpc
    exact ⟨h.requestSender.trans (by rw [← hpc]), h.requestReceiver, h.responseSender,
      h.responseReceiver.trans (by rw [← hpc])⟩
  have hsend : ∀ {down : DownstreamHandler ψ} (task : HttpTask) (room : s.requests.HasRoom), down.pc = s.down.pc →
      ({ s with down := down, requests := s.requests.send task room } : Duplex ψ).Held := by
    intro down task room hpc
    exact ⟨h.requestSender.trans (by rw [← hpc]), h.requestReceiver, h.responseSender,
      h.responseReceiver.trans (by rw [← hpc])⟩
  cases hstep with
  | start hpc room alive =>
    have hrun : s.down.pc.hasReturned = false := by rw [hpc]; rfl
    obtain ⟨-, h'⟩ | ⟨seen, h' | ⟨-, h'⟩ | ⟨task, -, -, h'⟩⟩ := onStart_cases cfg s room
    · rw [h']
      exact held_downTop h hrun
    · rw [h']
      exact hreturn _ rfl rfl rfl
    · rw [h']
      exact held_downTop (hmid rfl) hrun
    · rw [h']
      exact held_downTop (hsend task room rfl) hrun
  | startRefused => exact hreturn _ rfl rfl rfl
  | startWithout hpc => exact held_downTop h (by rw [hpc]; rfl)
  | @body data bodyDone hpc room reading expected ended =>
    have hrun : s.down.pc.hasReturned = false := by rw [hpc]; rfl
    obtain ⟨seen, h' | ⟨-, -, h'⟩ | ⟨task, -, h'⟩⟩ := onBody_cases cfg s room data bodyDone
    · rw [h']
      exact hreturn _ rfl rfl rfl
    · rw [h']
      exact held_downTop (hmid rfl) hrun
    · rw [h']
      exact held_downTop (hsend task room rfl) hrun
  | bodyError => exact hreturn _ rfl rfl rfl
  | permit hpc => exact held_downTop (hmid rfl) (by show s.down.pc.hasReturned = false; rw [hpc]; rfl)
  | tasks hpc =>
    exact ⟨h.requestSender.trans (by rw [hpc]; rfl), h.requestReceiver, h.responseSender,
      h.responseReceiver.trans (by rw [hpc]; rfl)⟩
  | tasksRefused => exact hreturn _ rfl rfl rfl
  | upstreamGone hpc => exact held_downTop (hmid rfl) (by show s.down.pc.hasReturned = false; rw [hpc]; rfl)
  | wrote hpc =>
    have hrun : s.down.pc.hasReturned = false := by rw [hpc]; rfl
    unfold onWrote
    dsimp only
    split
    · exact held_downTop (hmid rfl) hrun
    · exact held_downTop (hmid rfl) hrun
  | writeError => exact hreturn _ rfl rfl rfl

theorem held_up (h : s.Held) (hstep : UpstreamStep cfg s e t) : t.Held := by
  have hreturn : ∀ r : Except ProxyError Unit, (s.upReturn r).Held :=
    fun r => ⟨h.requestSender, rfl, rfl, h.responseReceiver⟩
  have hmid : ∀ {up : UpstreamHandler}, s.up.pc.hasReturned = false → up.pc.hasReturned = false →
      ({ s with up := up } : Duplex ψ).Held := by
    intro up hs hup
    refine ⟨h.requestSender, h.requestReceiver.trans ?_, h.responseSender.trans ?_, h.responseReceiver⟩
    · rw [hs, hup]
    · rw [hs, hup]
  have hsend : ∀ (task : HttpTask) (room : s.responses.HasRoom),
      ({ s with responses := s.responses.send task room } : Duplex ψ).Held :=
    fun task room => ⟨h.requestSender, h.requestReceiver, h.responseSender, h.responseReceiver⟩
  cases hstep with
  | read hpc => exact hmid (by rw [hpc]; rfl) rfl
  | readError hpc => exact hmid (by rw [hpc]; rfl) rfl
  | @sent task hpc room alive =>
    exact held_upTop (hsend task room) (by show s.up.pc.hasReturned = false; rw [hpc]; rfl)
  | sendLost hpc =>
    unfold onSendLost
    split
    · exact held_upTop h (by rw [hpc]; rfl)
    · exact hreturn _
  | @failureSent task hpc room alive => exact ⟨h.requestSender, rfl, rfl, h.responseReceiver⟩
  | failureLost => exact hreturn _
  | take hpc more received =>
    obtain ⟨-, -, -, hsender, hreceiver⟩ := Chan.recv_eq_some received
    refine ⟨hsender.trans h.requestSender, hreceiver.trans (h.requestReceiver.trans ?_), h.responseSender.trans ?_,
      h.responseReceiver⟩
    · rw [hpc]; rfl
    · rw [hpc]; rfl
  | takeEnd hpc => exact hmid (by rw [hpc]; rfl) rfl
  | uploaded hpc =>
    have hrun : s.up.pc.hasReturned = false := by rw [hpc]; rfl
    unfold onUploaded
    exact held_upTop (hmid hrun hrun) hrun
  | uploadError hpc =>
    have hrun : s.up.pc.hasReturned = false := by rw [hpc]; rfl
    unfold onUploadError
    exact held_upTop (hmid hrun hrun) hrun

/-! ## The client's side -/

/-- What the downstream handler knows of the request, and what it sent of it. -/
structure Duplex.Requests (s : Duplex ψ) : Prop where
  live : s.down.downstreamState ≠ .errored
  done : s.down.downstreamState.isDone = true → s.down.bodyDone = true ∨ s.requests.receiverAlive = false
  tunnel : s.requests.senderAlive = true → s.down.downstreamState.isDone = false → s.down.bodyDone = true →
    s.down.wasUpgraded = true
  closed : ∀ task ∈ s.requests.sent, task.closes s.down.wasUpgraded = true →
    s.down.downstreamState.isDone = true ∧ s.down.bodyDone = true ∧ dataOf s.requests.sent = s.down.chunks.flatten
  last : ∀ task ∈ s.requests.sent.dropLast, task.closes s.down.wasUpgraded = false
  plain : s.down.wasUpgraded = false → ∀ task ∈ s.requests.sent, isUpgradedTask (some task) = false

/-- What the downstream handler knows of the response, and what it wrote of it. -/
structure Duplex.Responses (cfg : DuplexConfig ψ) (s : Duplex ψ) : Prop where
  cached : s.down.responseState.cachedDone = true
  clean : s.down.wrote.any HttpTask.isFailed = false
  ended : s.down.wrote.any HttpTask.isEnd = true →
    s.down.responseState.upstreamDone = true ∨ s.down.wasUpgraded = true
  switched : s.down.wasUpgraded = true → cfg.upgradeAsked = true ∧ s.down.wrote.any HttpTask.switches = true

/-- Where the downstream handler stands. -/
structure Duplex.DownAt (cfg : DuplexConfig ψ) (s : Duplex ψ) : Prop where
  fresh : s.down.pc = .starting → s.requests.sent = [] ∧ s.down.wasUpgraded = false ∧
    s.down.downstreamState = .new s.down.bodyDone ∧ s.down.bodyDone = cfg.bodyDone
  open_of_select : ∀ {permit}, s.down.pc = .select permit →
    s.down.downstreamState.isDone = false ∨ s.down.responseState.isDone = false
  room : s.down.pc = .select true → s.requests.HasRoom
  finished : s.down.pc = .returned (.ok ()) →
    s.down.downstreamState.isDone = true ∧ s.down.responseState.isDone = true

theorem closes_sent (wasUpgraded : Bool) (data : Option Bytes) (ended : Bool) :
    (if wasUpgraded then HttpTask.upgradedBody data ended else HttpTask.body data ended).closes wasUpgraded =
      ended := by
  cases wasUpgraded with
  | false => exact Bool.and_true _
  | true => exact Bool.and_true _

theorem isUpgradedTask_sent (data : Option Bytes) (ended : Bool) :
    isUpgradedTask (some (if false then HttpTask.upgradedBody data ended else HttpTask.body data ended)) = false := rfl

theorem DownstreamState.not_done_iff {d : DownstreamState} : d.isDone = false ↔ d = .reading := by
  cases d <;> decide

theorem DownstreamState.isDone_maybeFinished (d : DownstreamState) (b : Bool) :
    (d.maybeFinished b).isDone = (b || d.isDone) := by
  cases b <;> rfl

theorem DownstreamState.maybeFinished_ne_errored {d : DownstreamState} (h : d ≠ .errored) (b : Bool) :
    d.maybeFinished b ≠ .errored := by
  cases b with
  | false => exact h
  | true => exact fun hd => by cases hd

theorem requests_downReturn (r : Except ProxyError Unit) (h : s.Requests) : (s.downReturn r).Requests :=
  ⟨h.live, h.done, fun halive => (by cases halive), h.closed, h.last, h.plain⟩

theorem requests_downTop (h : s.Requests) : s.downTop.Requests := by
  obtain ⟨-, -, htop⟩ | ⟨-, htop⟩ := s.downTop_cases
  · rw [htop]
    exact requests_downReturn _ h
  · rw [htop]
    exact ⟨h.live, h.done, h.tunnel, h.closed, h.last, h.plain⟩

/-- What is sent while the body is read ends it, or closes nothing. -/
theorem requests_send {down : DownstreamHandler ψ} {data : Option Bytes} {ended : Bool} (h : s.Requests)
    (room : s.requests.HasRoom) (hopen : ∀ task ∈ s.requests.sent, task.closes s.down.wasUpgraded = false)
    (hup : down.wasUpgraded = s.down.wasUpgraded) (hlive : down.downstreamState ≠ .errored)
    (hdone : down.downstreamState.isDone = down.bodyDone) (hended : ended = true → down.bodyDone = true)
    (hdata : dataOf s.requests.sent ++ data.toList.flatten = down.chunks.flatten) :
    ({ s with down := down, requests := s.requests.send (if s.down.wasUpgraded then .upgradedBody data ended
        else .body data ended) room } : Duplex ψ).Requests where
  live := hlive
  done := fun hd => .inl (hdone.symm.trans hd)
  tunnel := by
    intro _ hd hb
    rw [hdone, hb] at hd
    cases hd
  closed := by
    intro task hmem hcloses
    rw [hup] at hcloses
    have hend : ended = true := by
      rw [Chan.sent_send, List.mem_append, List.mem_singleton] at hmem
      obtain hold | hnew := hmem
      · rw [hopen task hold] at hcloses
        cases hcloses
      · rwa [hnew, closes_sent] at hcloses
    refine ⟨hdone.trans (hended hend), hended hend, ?_⟩
    rw [Chan.sent_send, dataOf_append, dataOf_singleton, ← hdata]
    split <;> rfl
  last := by
    intro task hmem
    rw [Chan.sent_send, List.dropLast_concat] at hmem
    exact hup ▸ hopen task hmem
  plain := by
    intro hplain task hmem
    rw [Chan.sent_send, List.mem_append, List.mem_singleton] at hmem
    have hs : s.down.wasUpgraded = false := hup.symm.trans hplain
    obtain hold | hnew := hmem
    · exact h.plain hs task hold
    · rw [hnew, hs]
      exact isUpgradedTask_sent data ended

/-- A handler that still reads the body has closed nothing. -/
theorem open_of_reading (h : s.Requests) (hreading : s.down.downstreamState.isDone = false) (task : HttpTask)
    (hmem : task ∈ s.requests.sent) : task.closes s.down.wasUpgraded = false := by
  cases hcloses : task.closes s.down.wasUpgraded with
  | false => rfl
  | true =>
    rw [(h.closed task hmem hcloses).1] at hreading
    cases hreading

theorem requests_down (h : s.Requests) (hat : s.DownAt cfg) (hpiped : s.Piped) (hstep : DownstreamStep cfg s e t)
    (hrun : s.aborted = false) : t.Requests := by
  have hwhole : dataOf s.requests.sent = s.down.chunks.flatten :=
    hpiped.whole.resolve_right (fun ⟨r, hr⟩ => down_not_failed hrun r hr)
  cases hstep with
  | start hpc room alive =>
    obtain ⟨hnil, hup, hstate, hdone⟩ := hat.fresh hpc
    have hisDone : s.down.downstreamState.isDone = s.down.bodyDone := by
      rw [hstate]
      cases s.down.bodyDone <;> rfl
    have hread : ∀ seen, ({ s with down := { s.down with
        chunks := cfg.retryBuffer.toList, bodySeen := seen } } : Duplex ψ).Requests := by
      intro seen
      refine ⟨h.live, h.done, h.tunnel, ?_, h.last, h.plain⟩
      show ∀ task ∈ s.requests.sent, _
      rw [hnil]
      exact fun task hmem => absurd hmem List.not_mem_nil
    obtain ⟨-, h'⟩ | ⟨seen, h' | ⟨-, h'⟩ | ⟨task, htask, hempty, h'⟩⟩ := onStart_cases cfg s room
    · rw [h']
      exact requests_downTop h
    · rw [h']
      exact requests_downReturn _ (hread seen)
    · rw [h']
      exact requests_downTop (hread seen)
    · rw [h', htask]
      refine requests_downTop (requests_send h room ?_ rfl h.live hisDone ?_ ?_)
      · rw [hnil]
        exact fun task hmem => absurd hmem List.not_mem_nil
      · intro hended
        rw [Bool.or_eq_true, hisDone] at hended
        refine hended.elim id (fun hnone => ?_)
        exact hdone.trans (cfg.done_of_empty (hempty (Option.isNone_iff_eq_none.1 hnone)))
      · rw [hnil]
        rfl
  | startRefused => exact requests_downReturn _ h
  | startWithout => exact requests_downTop h
  | @body data bodyDone hpc room reading expected ended =>
    have hopen := open_of_reading h reading
    have hstate := DownstreamState.not_done_iff.1 reading
    have hchunks : (s.down.chunks ++ data.toList).flatten = s.down.chunks.flatten ++ data.toList.flatten :=
      List.flatten_append
    obtain ⟨seen, h' | ⟨hdone, hdata, h'⟩ | ⟨task, htask, h'⟩⟩ := onBody_cases cfg s room data bodyDone
    · rw [h']
      refine ⟨h.live, fun hd => ?_, fun halive => (by cases halive), fun task hmem hcloses => ?_, h.last, h.plain⟩
      · exact absurd (reading.symm.trans hd) Bool.false_ne_true
      · exact absurd ((hopen task hmem).symm.trans hcloses) Bool.false_ne_true
    · rw [h']
      refine requests_downTop ⟨h.live, fun hd => ?_, fun _ _ hb => ?_, fun task hmem hcloses => ?_, h.last, h.plain⟩
      · exact absurd (reading.symm.trans hd) Bool.false_ne_true
      · exact absurd (hdone.symm.trans hb) Bool.false_ne_true
      · exact absurd ((hopen task hmem).symm.trans hcloses) Bool.false_ne_true
    · rw [h', htask]
      have hended : (bodyDone || data.isNone) = bodyDone := by
        cases data with
        | none => exact (ended rfl).symm ▸ rfl
        | some data => exact Bool.or_false _
      rw [hended, hstate]
      refine requests_downTop (requests_send h room hopen rfl ?_ ?_ id ?_)
      · exact DownstreamState.maybeFinished_ne_errored (by decide) bodyDone
      · exact (DownstreamState.isDone_maybeFinished _ _).trans (Bool.or_false _)
      · rw [hwhole]
        exact hchunks.symm
  | bodyError => exact requests_downReturn _ h
  | permit hpc reading ready =>
    have hstate : s.down.downstreamState = .reading := of_decide_eq_true reading
    refine requests_downTop ⟨DownstreamState.maybeFinished_ne_errored h.live _, fun hd => ?_, fun halive hd hb => ?_,
      fun task hmem hcloses => ?_, h.last, h.plain⟩
    · cases hreceiver : s.requests.receiverAlive with
      | false => exact .inr rfl
      | true =>
        have hd' : (s.down.downstreamState.maybeFinished (!s.requests.receiverAlive)).isDone = true := hd
        rw [hreceiver, hstate] at hd'
        cases hd'
    · exact h.tunnel halive (hstate ▸ rfl) hb
    · have hcl := h.closed task hmem hcloses
      rw [hstate] at hcl
      cases hcl.1
  | tasks hpc => exact ⟨h.live, h.done, h.tunnel, h.closed, h.last, h.plain⟩
  | tasksRefused => exact requests_downReturn _ h
  | upstreamGone hpc => exact requests_downTop ⟨h.live, h.done, h.tunnel, h.closed, h.last, h.plain⟩
  | @wrote tasks finished bodyDone hpc clean =>
    unfold onWrote
    dsimp only
    split
    · rename_i hjust
      rw [Bool.and_eq_true, Bool.not_eq_true'] at hjust
      obtain ⟨hplain, hnow⟩ := hjust
      have hopen : ∀ task ∈ s.requests.sent, task.closes true = false := by
        intro task hmem
        unfold HttpTask.closes
        rw [h.plain hplain task hmem]
        exact Bool.and_false _
      have hstate : (if s.down.downstreamState.canPoll = true then DownstreamState.reading
          else s.down.downstreamState) = .reading := if_pos (decide_eq_true h.live)
      rw [hnow, hstate]
      refine requests_downTop ⟨fun hd => (by cases hd), fun hd => (by cases hd), fun _ _ _ => rfl,
        fun task hmem hcloses => ?_, fun task hmem => hopen task (List.dropLast_subset _ hmem),
        fun hfalse => (by cases hfalse)⟩
      exact absurd ((hopen task hmem).symm.trans hcloses) Bool.false_ne_true
    · rename_i hnot
      have hsame : (s.down.wasUpgraded || cfg.upgradeAsked && tasks.any HttpTask.switches) = s.down.wasUpgraded := by
        cases hs : s.down.wasUpgraded with
        | true => rfl
        | false =>
          rw [hs] at hnot
          exact Bool.eq_false_iff.2 hnot
      rw [hsame]
      refine requests_downTop ⟨DownstreamState.maybeFinished_ne_errored h.live _, fun hd => ?_, fun halive hd hb => ?_,
        fun task hmem hcloses => ?_, h.last, h.plain⟩
      · have hd' := (DownstreamState.isDone_maybeFinished _ _).symm.trans hd
        rw [Bool.or_eq_true] at hd'
        obtain hb | hd' := hd'
        · exact .inl hb
        · exact (h.done hd').imp (fun hb => Bool.or_eq_true_iff.2 (.inl hb)) id
      · have hd' := (DownstreamState.isDone_maybeFinished _ _).symm.trans hd
        rw [Bool.or_eq_false_iff] at hd'
        exact absurd (hd'.1.symm.trans hb) Bool.false_ne_true
      · obtain ⟨hd, hb, hdata⟩ := h.closed task hmem hcloses
        refine ⟨(DownstreamState.isDone_maybeFinished _ _).trans ?_, Bool.or_eq_true_iff.2 (.inl hb), hdata⟩
        rw [hd]
        exact Bool.or_true _
  | writeError => exact requests_downReturn _ h

theorem requests_up (h : s.Requests) (hstep : UpstreamStep cfg s e t) : t.Requests := by
  obtain ⟨hdown, hsent, hsender, -, -, halive, -⟩ := hstep.keeps
  refine ⟨?_, ?_, ?_, ?_, ?_, ?_⟩
  · rw [hdown]
    exact h.live
  · intro hd
    rw [hdown] at hd ⊢
    refine (h.done hd).imp id (fun hgone => ?_)
    cases hreceiver : t.requests.receiverAlive with
    | false => rfl
    | true => exact absurd (hgone.symm.trans (halive hreceiver)) Bool.false_ne_true
  · rw [hdown, hsender]
    exact h.tunnel
  · rw [hdown, hsent]
    exact h.closed
  · rw [hdown, hsent]
    exact h.last
  · rw [hdown, hsent]
    exact h.plain

/-- Where a step leaves the downstream handler. -/
theorem DownstreamStep.lands (h : DownstreamStep cfg s e t) :
    (∃ u : Duplex ψ, t = u.downTop) ∨ (∃ (u : Duplex ψ) (r : ProxyError), t = u.downReturn (.error r)) ∨
      ∃ tasks, t.down.pc = .writing tasks := by
  cases h with
  | start hpc room alive =>
    obtain ⟨-, h⟩ | ⟨seen, h | ⟨-, h⟩ | ⟨task, -, -, h⟩⟩ := onStart_cases cfg s room
    · exact .inl ⟨_, h⟩
    · exact .inr (.inl ⟨_, _, h⟩)
    · exact .inl ⟨_, h⟩
    · exact .inl ⟨_, h⟩
  | startRefused => exact .inr (.inl ⟨_, _, rfl⟩)
  | startWithout => exact .inl ⟨_, rfl⟩
  | @body data bodyDone hpc room reading expected ended =>
    obtain ⟨seen, h | ⟨-, -, h⟩ | ⟨task, -, h⟩⟩ := onBody_cases cfg s room data bodyDone
    · exact .inr (.inl ⟨_, _, h⟩)
    · exact .inl ⟨_, h⟩
    · exact .inl ⟨_, h⟩
  | bodyError => exact .inr (.inl ⟨_, _, rfl⟩)
  | permit => exact .inl ⟨_, rfl⟩
  | tasks => exact .inr (.inr ⟨_, rfl⟩)
  | tasksRefused => exact .inr (.inl ⟨_, _, rfl⟩)
  | upstreamGone => exact .inl ⟨_, rfl⟩
  | wrote =>
    unfold onWrote
    dsimp only
    split
    · exact .inl ⟨_, rfl⟩
    · exact .inl ⟨_, rfl⟩
  | writeError => exact .inr (.inl ⟨_, _, rfl⟩)

theorem downAt_downTop (u : Duplex ψ) : u.downTop.DownAt cfg := by
  obtain ⟨hreq, hres, htop⟩ | ⟨hopen, htop⟩ := u.downTop_cases
  · rw [htop]
    exact ⟨fun hpc => (by cases hpc), fun hpc => (by cases hpc), fun hpc => (by cases hpc), fun _ => ⟨hreq, hres⟩⟩
  · rw [htop]
    refine ⟨fun hpc => (by cases hpc), fun _ => hopen, fun hpc => ?_, fun hpc => (by cases hpc)⟩
    have hpermits : u.requests.permits = true := (DownstreamPc.select.inj hpc)
    exact of_decide_eq_true (Bool.and_eq_true_iff.1 hpermits).2

theorem downAt_down (hstep : DownstreamStep cfg s e t) : t.DownAt cfg := by
  obtain ⟨u, h⟩ | ⟨u, r, h⟩ | ⟨tasks, h⟩ := hstep.lands
  · rw [h]
    exact downAt_downTop u
  · rw [h]
    exact ⟨fun hpc => (by cases hpc), fun hpc => (by cases hpc), fun hpc => (by cases hpc), fun hpc => (by cases hpc)⟩
  · constructor
    all_goals
      intros
      rename_i hpc
      rw [h] at hpc
      cases hpc

theorem downAt_up (h : s.DownAt cfg) (hstep : UpstreamStep cfg s e t) : t.DownAt cfg := by
  obtain ⟨hdown, hsent, -, -, -, -, hroom⟩ := hstep.keeps
  refine ⟨?_, ?_, ?_, ?_⟩
  · rw [hdown, hsent]
    exact h.fresh
  · rw [hdown]
    exact h.open_of_select
  · rw [hdown]
    exact fun hpc => hroom (h.room hpc)
  · rw [hdown]
    exact h.finished

theorem responses_downReturn (r : Except ProxyError Unit) (h : s.Responses cfg) : (s.downReturn r).Responses cfg :=
  ⟨h.cached, h.clean, h.ended, h.switched⟩

theorem responses_downTop (h : s.Responses cfg) : s.downTop.Responses cfg := by
  obtain ⟨-, -, htop⟩ | ⟨-, htop⟩ := s.downTop_cases
  · rw [htop]
    exact responses_downReturn _ h
  · rw [htop]
    exact ⟨h.cached, h.clean, h.ended, h.switched⟩

theorem ResponseState.upstreamDone_maybe (r : ResponseState) (done : Bool) :
    (r.maybeSetUpstreamDone done).upstreamDone = (done || r.upstreamDone) := by
  cases done <;> rfl

theorem ResponseState.cachedDone_maybe (r : ResponseState) (done : Bool) :
    (r.maybeSetUpstreamDone done).cachedDone = r.cachedDone := by
  cases done <;> rfl

theorem responses_down (h : s.Responses cfg) (hstep : DownstreamStep cfg s e t) : t.Responses cfg := by
  have hset : ∀ (done : Bool) {down : DownstreamHandler ψ} {requests : Chan HttpTask taskBufferSize},
      down.responseState = s.down.responseState.maybeSetUpstreamDone done → down.wrote = s.down.wrote →
      down.wasUpgraded = s.down.wasUpgraded →
      ({ s with down := down, requests := requests } : Duplex ψ).Responses cfg := by
    intro done down requests hstate hwrote hup
    refine ⟨?_, ?_, ?_, ?_⟩
    · exact (congrArg _ hstate).trans ((ResponseState.cachedDone_maybe _ _).trans h.cached)
    · exact hwrote ▸ h.clean
    · show down.wrote.any _ = true → down.responseState.upstreamDone = true ∨ down.wasUpgraded = true
      rw [hwrote, hstate, hup, ResponseState.upstreamDone_maybe]
      exact fun hend => (h.ended hend).imp (fun hd => by rw [hd, Bool.or_true]) id
    · show down.wasUpgraded = true → _ ∧ down.wrote.any _ = true
      rw [hwrote, hup]
      exact h.switched
  cases hstep with
  | start hpc room alive =>
    obtain ⟨-, h'⟩ | ⟨seen, h' | ⟨-, h'⟩ | ⟨task, -, -, h'⟩⟩ := onStart_cases cfg s room
    · rw [h']
      exact responses_downTop h
    · rw [h']
      exact responses_downReturn _ (hset false rfl rfl rfl)
    · rw [h']
      exact responses_downTop (hset false rfl rfl rfl)
    · rw [h']
      exact responses_downTop (hset false rfl rfl rfl)
  | startRefused => exact responses_downReturn _ h
  | startWithout => exact responses_downTop h
  | @body data bodyDone hpc room reading expected ended =>
    obtain ⟨seen, h' | ⟨-, -, h'⟩ | ⟨task, -, h'⟩⟩ := onBody_cases cfg s room data bodyDone
    · rw [h']
      exact responses_downReturn _ (hset _ rfl rfl rfl)
    · rw [h']
      exact responses_downTop (hset _ rfl rfl rfl)
    · rw [h']
      exact responses_downTop (hset _ rfl rfl rfl)
  | bodyError => exact responses_downReturn _ h
  | permit => exact responses_downTop (hset false rfl rfl rfl)
  | tasks => exact ⟨h.cached, h.clean, h.ended, h.switched⟩
  | tasksRefused => exact responses_downReturn _ h
  | upstreamGone => exact responses_downTop (hset true rfl rfl rfl)
  | @wrote tasks finished bodyDone hpc clean =>
    have hclean : (s.down.wrote ++ tasks).any HttpTask.isFailed = false := by
      rw [List.any_append, h.clean, clean]
      rfl
    have hswitched : (s.down.wasUpgraded || cfg.upgradeAsked && tasks.any HttpTask.switches) = true →
        cfg.upgradeAsked = true ∧ (s.down.wrote ++ tasks).any HttpTask.switches = true := by
      intro hup
      rw [List.any_append, Bool.or_eq_true]
      rw [Bool.or_eq_true, Bool.and_eq_true] at hup
      obtain hold | ⟨hasked, hnow⟩ := hup
      · exact (h.switched hold).imp id .inl
      · exact ⟨hasked, .inr hnow⟩
    unfold onWrote
    dsimp only
    split
    · rename_i hjust
      exact responses_downTop ⟨h.cached, hclean, fun _ => .inr (Bool.and_eq_true_iff.1 hjust).2, hswitched⟩
    · refine responses_downTop ⟨(ResponseState.cachedDone_maybe _ _).trans h.cached, hclean, fun hend => ?_, hswitched⟩
      show (s.down.responseState.maybeSetUpstreamDone _).upstreamDone = true ∨ _
      rw [ResponseState.upstreamDone_maybe]
      have hend' : (s.down.wrote ++ tasks).any HttpTask.isEnd = true := hend
      rw [List.any_append, Bool.or_eq_true] at hend'
      obtain hold | hnow := hend'
      · exact (h.ended hold).imp (fun hd => by rw [hd, Bool.or_true]) (fun hup => by rw [hup]; rfl)
      · rw [hnow]
        exact .inl rfl
  | writeError => exact responses_downReturn _ h

theorem responses_up (h : s.Responses cfg) (hstep : UpstreamStep cfg s e t) : t.Responses cfg := by
  have hdown := hstep.keeps.down
  constructor
  · rw [hdown]
    exact h.cached
  · rw [hdown]
    exact h.clean
  · rw [hdown]
    exact h.ended
  · rw [hdown]
    exact h.switched

/-! ## The upstream's side -/

/-- The client's side is done with the request, and all it sent is taken. -/
def Duplex.PipeEnded (s : Duplex ψ) : Prop :=
  s.down.pc = .returned (.ok ()) ∧ s.down.bodyDone = true ∧ s.requests.waiting = []

/-- The request has been taken to its end: a task that closes it, or all of a pipe that has ended. -/
def Duplex.RequestEnded (s : Duplex ψ) : Prop :=
  (∃ task ∈ s.requests.taken, task.closes s.up.wasUpgraded = true) ∨ s.PipeEnded

/-- What the upstream handler knows of either message. -/
structure Duplex.Fetches (cfg : DuplexConfig ψ) (s : Duplex ψ) : Prop where
  upgraded : s.up.upgraded = s.up.wasUpgraded
  switched : cfg.upgradeSent = true → s.up.read.any HttpTask.switches = true → s.up.wasUpgraded = true
  last : ∀ task ∈ s.up.read.dropLast, task.isEnd = false
  request : s.up.requestDone = true → s.up.sendError ≠ none ∨ s.RequestEnded
  response : s.up.responseDone = true →
    s.up.read.any HttpTask.isEnd = true ∨ s.up.requestDone = true ∧ s.up.wasUpgraded = true ∧ s.RequestEnded
  body : s.up.bodyFinished = true → s.up.wasUpgraded = false → s.up.requestDone = true ∧ s.up.sendError = none

/-- Where the upstream handler stands. -/
structure Duplex.UpAt (s : Duplex ψ) : Prop where
  reading : s.up.responseDone = false → s.up.read.any HttpTask.isEnd = false ∨
    (∃ task, s.up.pc = .sendingFailure task) ∨ s.up.pc.hasReturned = true
  open_of_select : s.up.pc = .select → s.up.requestDone = false ∨ s.up.responseDone = false
  open_of_upload : ∀ {task}, s.up.pc = .uploading task → s.up.requestDone = false
  upload : ∀ {task}, s.up.pc = .uploading (some task) → task ∈ s.requests.taken
  uploadEnd : s.up.pc = .uploading none → s.PipeEnded
  failure : ∀ {task}, s.up.pc = .sendingFailure task → s.up.read.any HttpTask.isFailed = true
  finished : s.up.pc = .returned (.ok ()) →
    s.up.requestDone = true ∧ s.up.responseDone = true ∨ s.up.read.any HttpTask.isFailed = true

theorem fetches_upReturn (r : Except ProxyError Unit) (h : s.Fetches cfg) : (s.upReturn r).Fetches cfg :=
  ⟨h.upgraded, h.switched, h.last, h.request, h.response, h.body⟩

theorem fetches_upTop (h : s.Fetches cfg) : s.upTop.Fetches cfg := by
  obtain ⟨-, -, htop⟩ | ⟨-, htop⟩ := s.upTop_cases
  · rw [htop]
    exact fetches_upReturn _ h
  · rw [htop]
    exact ⟨h.upgraded, h.switched, h.last, h.request, h.response, h.body⟩

theorem upAt_upReturn (r : Except ProxyError Unit) (h : r = .ok () →
    s.up.requestDone = true ∧ s.up.responseDone = true ∨ s.up.read.any HttpTask.isFailed = true) :
    (s.upReturn r).UpAt :=
  ⟨fun _ => .inr (.inr rfl), fun hpc => (by cases hpc), fun hpc => (by cases hpc), fun hpc => (by cases hpc),
    fun hpc => (by cases hpc), fun hpc => (by cases hpc), fun hpc => h (UpstreamPc.returned.inj hpc)⟩

theorem upAt_upTop (h : s.up.responseDone = false → s.up.read.any HttpTask.isEnd = false) : s.upTop.UpAt := by
  obtain ⟨hreq, hres, htop⟩ | ⟨hopen, htop⟩ := s.upTop_cases
  · rw [htop]
    exact upAt_upReturn _ (fun _ => .inl ⟨hreq, hres⟩)
  · rw [htop]
    exact ⟨fun hd => .inl (h hd), fun _ => hopen, fun hpc => (by cases hpc), fun hpc => (by cases hpc),
      fun hpc => (by cases hpc), fun hpc => (by cases hpc), fun hpc => (by cases hpc)⟩

/-- While it neither fails nor has returned, the handler has read no end that it does not know of. -/
theorem not_ended (h : s.UpAt) (hfail : ∀ task, s.up.pc ≠ .sendingFailure task) (hrun : s.up.pc.hasReturned = false)
    (hd : s.up.responseDone = false) : s.up.read.any HttpTask.isEnd = false := by
  obtain hread | ⟨task, hpc⟩ | hreturned := h.reading hd
  · exact hread
  · exact absurd hpc (hfail task)
  · exact absurd (hrun.symm.trans hreturned) Bool.false_ne_true

/-- A task that is read is the last, if it is an end; a tunnel's head opens the request again. -/
theorem fetches_onTask (h : s.Fetches cfg) (task : HttpTask) (hread : s.up.read.any HttpTask.isEnd = false) :
    (s.onTask cfg task).Fetches cfg := by
  have hup : (s.up.upgraded || (!s.up.upgraded && (s.up.wasUpgraded || cfg.upgradeSent && task.switches))) =
      (s.up.wasUpgraded || cfg.upgradeSent && task.switches) := by
    rw [h.upgraded]
    cases s.up.wasUpgraded <;> rfl
  have hsame : (!s.up.upgraded && (s.up.wasUpgraded || cfg.upgradeSent && task.switches)) = false →
      (s.up.wasUpgraded || cfg.upgradeSent && task.switches) = s.up.wasUpgraded := by
    rw [h.upgraded]
    cases s.up.wasUpgraded with
    | true => exact fun _ => rfl
    | false => exact id
  refine ⟨hup, ?_, ?_, ?_, ?_, ?_⟩
  · intro hsent hswitches
    have hswitches' : (s.up.read ++ [task]).any HttpTask.switches = true := hswitches
    rw [List.any_append, Bool.or_eq_true, List.any_cons, List.any_nil, Bool.or_false] at hswitches'
    refine Bool.or_eq_true_iff.2 (hswitches'.imp (h.switched hsent) (fun hnow => ?_))
    rw [hsent, hnow]
    rfl
  · show ∀ other ∈ (s.up.read ++ [task]).dropLast, other.isEnd = false
    rw [List.dropLast_concat]
    intro other hmem
    exact Bool.eq_false_iff.2 (List.any_eq_false.1 hread other hmem)
  · intro hdone
    have hdone' : (if (!s.up.upgraded && (s.up.wasUpgraded || cfg.upgradeSent && task.switches)) &&
        s.up.sendError.isNone then false else s.up.requestDone) = true := hdone
    split at hdone'
    · cases hdone'
    · rename_i hnot
      refine (Classical.em (s.up.sendError = none)).elim (fun hnone => .inr ?_) .inl
      rw [hnone, Option.isNone_none, Bool.and_true] at hnot
      have hended := (h.request hdone').resolve_left (fun hne => hne hnone)
      unfold RequestEnded
      rwa [show (s.onTask cfg task).up.wasUpgraded = s.up.wasUpgraded from hsame (Bool.eq_false_iff.2 hnot)]
  · intro hdone
    refine .inl (List.any_eq_true.2 ⟨task, List.mem_append_right _ List.mem_cons_self, hdone⟩)
  · intro hfinished hplain
    have hnow : (s.up.wasUpgraded || cfg.upgradeSent && task.switches) = false := hplain
    obtain ⟨hdone, hnone⟩ := h.body hfinished (Bool.or_eq_false_iff.1 hnow).1
    refine ⟨?_, hnone⟩
    show (if _ then false else s.up.requestDone) = true
    rw [hnow, Bool.and_false, Bool.false_and, if_neg Bool.false_ne_true]
    exact hdone

/-- An upload that comes through ends the request with the task that closes it. -/
theorem fetches_onUploaded {task : Option HttpTask} (h : s.Fetches cfg) (hopen : s.up.requestDone = false)
    (hnone : s.up.sendError = none) (hended : bodyEnds task = true →
      (!s.up.wasUpgraded || isUpgradedTask task) = true → s.RequestEnded) :
    (s.onUploaded task).Fetches cfg := by
  have hrequest : (if !s.up.wasUpgraded || isUpgradedTask task then bodyEnds task else s.up.requestDone) = true →
      s.RequestEnded := by
    intro hdone
    split at hdone
    · rename_i hcounts
      exact hended hdone hcounts
    · exact absurd (hopen.symm.trans hdone) Bool.false_ne_true
  refine fetches_upTop ⟨h.upgraded, h.switched, h.last, fun hdone => .inr (hrequest hdone), fun hdone => ?_,
    fun hfinished hplain => ⟨?_, hnone⟩⟩
  · obtain hold | hnew := Bool.or_eq_true_iff.1 (show (s.up.responseDone || _) = true from hdone)
    · exact (h.response hold).imp id (fun hclosed => absurd (hopen.symm.trans hclosed.1) Bool.false_ne_true)
    · rw [Bool.and_eq_true, Bool.and_eq_true] at hnew
      exact .inr ⟨hnew.1.1, hnew.1.2, hrequest hnew.1.1⟩
  · have hplain' : s.up.wasUpgraded = false := hplain
    show (if !s.up.wasUpgraded || isUpgradedTask task then bodyEnds task else s.up.requestDone) = true
    rw [if_pos (by rw [hplain']; rfl)]
    obtain hold | hnew := Bool.or_eq_true_iff.1 (show (s.up.bodyFinished || _) = true from hfinished)
    · exact absurd (hopen.symm.trans (h.body hold hplain').1) Bool.false_ne_true
    · exact hnew

theorem up_ended (h : s.Fetches cfg) (hat : s.UpAt) (hheld : s.Held) (huploads : s.Uploads) (hrequests : s.Requests)
    (hdown : s.DownAt cfg) (hstep : UpstreamStep cfg s e t) (hrun : s.aborted = false) : t.Fetches cfg ∧ t.UpAt := by
  cases hstep with
  | @read task hpc more =>
    have hread : s.up.read.any HttpTask.isEnd = false :=
      not_ended hat (fun task h => by rw [hpc] at h; cases h) (by rw [hpc]; rfl) more
    refine ⟨fetches_onTask h task hread, fun hdone => .inl ?_, fun hpc => (by cases hpc), fun hpc => (by cases hpc),
      fun hpc => (by cases hpc), fun hpc => (by cases hpc), fun hpc => (by cases hpc), fun hpc => (by cases hpc)⟩
    show (s.up.read ++ [task]).any HttpTask.isEnd = false
    rw [List.any_append, hread, List.any_cons, show task.isEnd = false from hdone]
    rfl
  | @readError e hpc more =>
    have hread : s.up.read.any HttpTask.isEnd = false :=
      not_ended hat (fun task h => by rw [hpc] at h; cases h) (by rw [hpc]; rfl) more
    refine ⟨⟨h.upgraded, fun hsent hswitches => ?_, fun other hmem => ?_, h.request, fun hdone => ?_, h.body⟩,
      fun _ => .inr (.inl ⟨_, rfl⟩), fun hpc => (by cases hpc), fun hpc => (by cases hpc), fun hpc => (by cases hpc),
      fun hpc => (by cases hpc), fun _ => ?_, fun hpc => (by cases hpc)⟩
    · refine h.switched hsent ?_
      rwa [show (s.onReadError e).up.read = s.up.read ++ [.failed _] from rfl, List.any_append, List.any_cons,
        List.any_nil, Bool.or_false, show HttpTask.switches (.failed _) = false from rfl, Bool.or_false] at hswitches
    · rw [show (s.onReadError e).up.read = s.up.read ++ [.failed _] from rfl, List.dropLast_concat] at hmem
      exact Bool.eq_false_iff.2 (List.any_eq_false.1 hread other hmem)
    · exact absurd (more.symm.trans hdone) Bool.false_ne_true
    · exact List.any_eq_true.2 ⟨_, List.mem_append_right _ List.mem_cons_self, rfl⟩
  | @sent task hpc room alive =>
    have hread := not_ended hat (fun task h => by rw [hpc] at h; cases h) (by rw [hpc]; rfl)
    exact ⟨fetches_upTop ⟨h.upgraded, h.switched, h.last, h.request, h.response, h.body⟩, upAt_upTop hread⟩
  | sendLost hpc gone =>
    have hread := not_ended hat (fun task h => by rw [hpc] at h; cases h) (by rw [hpc]; rfl)
    unfold onSendLost
    split
    · exact ⟨fetches_upTop h, upAt_upTop hread⟩
    · exact ⟨fetches_upReturn _ h, upAt_upReturn _ (fun hr => by cases hr)⟩
  | failureSent hpc room alive =>
    exact ⟨fetches_upReturn _ ⟨h.upgraded, h.switched, h.last, h.request, h.response, h.body⟩,
      upAt_upReturn _ (fun _ => .inr (hat.failure hpc))⟩
  | failureLost hpc gone => exact ⟨fetches_upReturn _ h, upAt_upReturn _ (fun _ => .inr (hat.failure hpc))⟩
  | @take task requests hpc more received =>
    obtain ⟨htaken, hwaits, -⟩ := Chan.recv_eq_some received
    have hread := not_ended hat (fun task h => by rw [hpc] at h; cases h) (by rw [hpc]; rfl)
    have hmono : s.RequestEnded → (s.onTake (some task) requests).RequestEnded := by
      rintro (⟨other, hmem, hcloses⟩ | ⟨-, hnil⟩)
      · refine .inl ⟨other, ?_, hcloses⟩
        show other ∈ requests.taken
        rw [htaken]
        exact List.mem_append_left _ hmem
      · rw [hnil.2] at hwaits
        cases hwaits
    refine ⟨⟨h.upgraded, h.switched, h.last, fun hdone => (h.request hdone).imp id hmono,
        fun hdone => (h.response hdone).imp id (And.imp id (And.imp id hmono)), h.body⟩,
      fun hdone => .inl (hread hdone), fun hpc => (by cases hpc), fun _ => more, fun hpc => ?_,
      fun hpc => (by cases hpc), fun hpc => (by cases hpc), fun hpc => (by cases hpc)⟩
    cases hpc
    show task ∈ requests.taken
    rw [htaken]
    exact List.mem_append_right _ List.mem_cons_self
  | takeEnd hpc more empty gone =>
    have hread := not_ended hat (fun task h => by rw [hpc] at h; cases h) (by rw [hpc]; rfl)
    have hreturned : s.down.pc = .returned (.ok ()) := by
      have hgone := hheld.requestSender.symm.trans gone
      cases hdown : s.down.pc with
      | returned result =>
        cases result with
        | ok _ => rfl
        | error r => exact absurd hdown (down_not_failed hrun r)
      | starting | select permit | writing tasks =>
        rw [hdown] at hgone
        cases hgone
    have hdone : s.down.bodyDone = true := by
      refine (hrequests.done (hdown.finished hreturned).1).resolve_right (fun hlost => ?_)
      rw [hheld.requestReceiver, hpc] at hlost
      cases hlost
    exact ⟨⟨h.upgraded, h.switched, h.last, h.request, h.response, h.body⟩, fun hdone => .inl (hread hdone),
      fun hpc => (by cases hpc), fun _ => more, fun hpc => (by cases hpc), fun _ => ⟨hreturned, hdone, empty⟩,
      fun hpc => (by cases hpc), fun hpc => (by cases hpc)⟩
  | @uploaded task hpc =>
    have hread := not_ended hat (fun task h => by rw [hpc] at h; cases h) (by rw [hpc]; rfl)
    have hnone : s.up.sendError = none := by
      by_contra herror
      exact (huploads.stopped herror).2 task hpc
    refine ⟨fetches_onUploaded h (hat.open_of_upload hpc) hnone (fun hend hcounts => ?_), upAt_upTop (fun hdone => ?_)⟩
    · cases task with
      | none => exact .inr (hat.uploadEnd hpc)
      | some task => exact .inl ⟨task, hat.upload hpc, Bool.and_eq_true_iff.2 ⟨hend, hcounts⟩⟩
    · exact hread (Bool.or_eq_false_iff.1 (show (s.up.responseDone || _) = false from hdone)).1
  | @uploadError task e hpc =>
    have hread := not_ended hat (fun task h => by rw [hpc] at h; cases h) (by rw [hpc]; rfl)
    have hopen := hat.open_of_upload hpc
    refine ⟨fetches_upTop ⟨h.upgraded, h.switched, h.last, fun _ => .inl (fun hnone => by cases hnone),
      fun hdone => ?_, fun hfinished hplain => ?_⟩, upAt_upTop hread⟩
    · exact (h.response hdone).imp id (fun hclosed => absurd (hopen.symm.trans hclosed.1) Bool.false_ne_true)
    · exact absurd (hopen.symm.trans (h.body hfinished hplain).1) Bool.false_ne_true

theorem DownstreamStep.running (h : DownstreamStep cfg s e t) (r : Except ProxyError Unit) :
    s.down.pc ≠ .returned r := by
  intro hr
  cases h with
  | start hpc | startRefused hpc | startWithout hpc | body hpc | bodyError hpc | permit hpc | tasks hpc
  | tasksRefused hpc | upstreamGone hpc | wrote hpc | writeError hpc =>
    rw [hr] at hpc
    cases hpc

theorem UpstreamStep.running (h : UpstreamStep cfg s e t) (r : Except ProxyError Unit) : s.up.pc ≠ .returned r := by
  intro hr
  cases h with
  | read hpc | readError hpc | sent hpc | sendLost hpc | failureSent hpc | failureLost hpc | take hpc | takeEnd hpc
  | uploaded hpc | uploadError hpc =>
    rw [hr] at hpc
    cases hpc

theorem up_ended_frame (h : s.Fetches cfg) (hat : s.UpAt) (hstep : DownstreamStep cfg s e t) :
    t.Fetches cfg ∧ t.UpAt := by
  obtain ⟨hup, htaken, -⟩ := hstep.keeps
  have hended : s.RequestEnded → t.RequestEnded := by
    rintro (⟨task, hmem, hcloses⟩ | ⟨hpc, -⟩)
    · exact .inl ⟨task, by rwa [htaken], by rwa [hup]⟩
    · exact absurd hpc (hstep.running _)
  constructor
  · obtain ⟨hupgraded, hswitched, hlast, hrequest, hresponse, hbody⟩ := h
    constructor
    · rwa [hup]
    · rwa [hup]
    · rwa [hup]
    · rw [hup]
      exact fun hdone => (hrequest hdone).imp id hended
    · rw [hup]
      exact fun hdone => (hresponse hdone).imp id (And.imp id (And.imp id hended))
    · rwa [hup]
  · obtain ⟨hreading, hselect, hopen, hupload, hend, hfailure, hfinished⟩ := hat
    constructor
    · rwa [hup]
    · rwa [hup]
    · rwa [hup]
    · rwa [hup, htaken]
    · rw [hup]
      exact fun hpc => absurd (hend hpc).1 (hstep.running _)
    · rwa [hup]
    · rwa [hup]

end Zaphyl
