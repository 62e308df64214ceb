import Zaphyl.Duplex
import Zaphyl.Runs
/-!
# DuplexRelay — what the two handlers relay, in order

Whatever the handlers' awaits come back with and in whichever order, the upstream is written the bytes that were read
of the client, in order and without gaps or repeats, and the client the tasks that were read of the upstream, filtered
(`relayed_in_order`).  Each of the invariants is kept by one handler and left alone by the other.
-/
namespace Zaphyl

open Mpsc Duplex

variable {ψ : Type} {cfg : DuplexConfig ψ} {s t : Duplex ψ} {e : DuplexEvent}

/-! ## The request's bytes -/

/-- The bytes that tasks carry, in order. -/
def dataOf (tasks : List HttpTask) : Bytes := (tasks.filterMap HttpTask.data).flatten

theorem dataOf_append (as bs : List HttpTask) : dataOf (as ++ bs) = dataOf as ++ dataOf bs := by
  unfold dataOf
  rw [List.filterMap_append, List.flatten_append]

theorem dataOf_singleton (task : HttpTask) : dataOf [task] = task.data.toList.flatten := by
  unfold dataOf
  rw [List.filterMap_cons]
  cases task.data with
  | none => rfl
  | some data => rfl

/-- What is being uploaded. -/
def UpstreamPc.uploads : UpstreamPc → List HttpTask
  | .uploading task => task.toList
  | _ => []

/-- The pipe holds the bytes that were read of the client. -/
structure Duplex.Piped (s : Duplex ψ) : Prop where
  starting : s.down.pc = .starting → s.requests.sent = []
  sent_prefix : dataOf s.requests.sent <+: s.down.chunks.flatten
  whole : dataOf s.requests.sent = s.down.chunks.flatten ∨ ∃ r, s.down.pc = .returned (.error r)

/-- The upstream is written the bytes of the pipe, up to an error. -/
structure Duplex.Uploads (s : Duplex ψ) : Prop where
  written_prefix : s.up.written.flatten <+: dataOf s.requests.taken
  whole : s.up.sendError = none → dataOf s.requests.taken = s.up.written.flatten ++ dataOf s.up.pc.uploads
  stopped : s.up.sendError ≠ none → s.up.requestDone = true ∧ ∀ task, s.up.pc ≠ .uploading task

theorem down_not_failed (h : s.aborted = false) (r : ProxyError) : s.down.pc ≠ .returned (.error r) := by
  intro hpc
  unfold aborted at h
  rw [hpc] at h
  split at h
  · cases h
  · cases h
  · rename_i hnot
    exact hnot _ rfl

theorem up_not_failed (h : s.aborted = false) (r : ProxyError) : s.up.pc ≠ .returned (.error r) := by
  intro hpc
  unfold aborted at h
  rw [hpc] at h
  cases h

theorem piped_downTop (h : dataOf s.requests.sent = s.down.chunks.flatten) : s.downTop.Piped := by
  obtain ⟨-, -, htop⟩ | ⟨-, htop⟩ := s.downTop_cases
  · rw [htop]
    exact ⟨fun hpc => (by cases hpc), h ▸ List.prefix_rfl, .inl h⟩
  · rw [htop]
    exact ⟨fun hpc => (by cases hpc), h ▸ List.prefix_rfl, .inl h⟩

theorem piped_downReturn (e : ProxyError) (h : dataOf s.requests.sent <+: s.down.chunks.flatten) :
    (s.downReturn (.error e)).Piped :=
  ⟨fun hpc => (by cases hpc), h, .inr ⟨e, rfl⟩⟩

theorem piped_down (h : s.Piped) (hstep : DownstreamStep cfg s e t) (hrun : s.aborted = false) : t.Piped := by
  have hwhole : dataOf s.requests.sent = s.down.chunks.flatten :=
    h.whole.resolve_right (fun ⟨r, hr⟩ => down_not_failed hrun r hr)
  cases hstep with
  | start hpc room alive =>
    have hnil := h.starting hpc
    obtain ⟨-, h⟩ | ⟨seen, h | ⟨hbuffer, h⟩ | ⟨task, htask, -, h⟩⟩ := onStart_cases cfg s room
    · rw [h]
      exact piped_downTop hwhole
    · rw [h]
      refine piped_downReturn _ ?_
      show dataOf s.requests.sent <+: _
      rw [hnil]
      exact List.nil_prefix
    · rw [h]
      refine piped_downTop ?_
      show dataOf s.requests.sent = _
      rw [hnil, hbuffer]
      rfl
    · rw [h]
      refine piped_downTop ?_
      show dataOf (s.requests.sent ++ [task]) = _
      rw [hnil, List.nil_append, dataOf_singleton, htask]
      split <;> rfl
  | startRefused => exact piped_downReturn _ h.sent_prefix
  | startWithout => exact piped_downTop hwhole
  | @body data bodyDone hpc room reading expected ended =>
    have hchunks : (s.down.chunks ++ data.toList).flatten = s.down.chunks.flatten ++ data.toList.flatten :=
      List.flatten_append
    obtain ⟨seen, h | ⟨-, hdata, h⟩ | ⟨task, htask, h⟩⟩ := onBody_cases cfg s room data bodyDone
    · rw [h]
      refine piped_downReturn _ ?_
      show dataOf s.requests.sent <+: (s.down.chunks ++ data.toList).flatten
      rw [hchunks, hwhole]
      exact List.prefix_append _ _
    · rw [h]
      refine piped_downTop ?_
      show dataOf s.requests.sent = (s.down.chunks ++ data.toList).flatten
      rw [hchunks, hwhole, hdata]
      exact (List.append_nil _).symm
    · rw [h]
      refine piped_downTop ?_
      show dataOf (s.requests.sent ++ [task]) = (s.down.chunks ++ data.toList).flatten
      rw [hchunks, dataOf_append, hwhole, dataOf_singleton, htask]
      split <;> rfl
  | bodyError => exact piped_downReturn _ h.sent_prefix
  | permit => exact piped_downTop hwhole
  | tasks => exact ⟨fun hpc => (by cases hpc), h.sent_prefix, .inl hwhole⟩
  | tasksRefused => exact piped_downReturn _ h.sent_prefix
  | upstreamGone => exact piped_downTop hwhole
  | wrote =>
    unfold onWrote
    dsimp only
    split
    · exact piped_downTop hwhole
    · exact piped_downTop hwhole
  | writeError => exact piped_downReturn _ h.sent_prefix

/-- Between uploads all that was taken is written. -/
theorem uploads_of_idle (hpc : ∀ task, s.up.pc ≠ .uploading task)
    (hpre : s.up.written.flatten <+: dataOf s.requests.taken)
    (hwhole : s.up.sendError = none → dataOf s.requests.taken = s.up.written.flatten)
    (hstopped : s.up.sendError ≠ none → s.up.requestDone = true) : s.Uploads := by
  refine ⟨hpre, fun hnone => ?_, fun herror => ⟨hstopped herror, hpc⟩⟩
  have hnil : s.up.pc.uploads = [] := by
    cases h : s.up.pc with
    | uploading task => exact absurd h (hpc task)
    | select | sending task | sendingFailure task | returned result => rfl
  rw [hwhole hnone, hnil]
  exact (List.append_nil _).symm

theorem uploads_upTop (hpre : s.up.written.flatten <+: dataOf s.requests.taken)
    (hwhole : s.up.sendError = none → dataOf s.requests.taken = s.up.written.flatten)
    (hstopped : s.up.sendError ≠ none → s.up.requestDone = true) : s.upTop.Uploads := by
  obtain ⟨-, -, htop⟩ | ⟨-, htop⟩ := s.upTop_cases
  · rw [htop]
    exact uploads_of_idle (fun task h => by cases h) hpre hwhole hstopped
  · rw [htop]
    exact uploads_of_idle (fun task h => by cases h) hpre hwhole hstopped

theorem uploads_up (h : s.Uploads) (hstep : UpstreamStep cfg s e t) : t.Uploads := by
  have hidle : s.up.pc.uploads = [] → s.up.sendError = none → dataOf s.requests.taken = s.up.written.flatten := by
    intro hpc hnone
    rw [h.whole hnone, hpc]
    exact List.append_nil _
  have hstopped : s.up.sendError ≠ none → s.up.requestDone = true := fun herror => (h.stopped herror).1
  have hopen : s.up.requestDone = false → s.up.sendError = none := by
    intro hmore
    by_contra herror
    rw [hstopped herror] at hmore
    cases hmore
  cases hstep with
  | @read task hpc more =>
    refine uploads_of_idle (fun task h => by cases h) h.written_prefix (hidle (by rw [hpc]; rfl)) (fun herror => ?_)
    have hsome : s.up.sendError.isNone = false := by
      cases hs : s.up.sendError with
      | none => exact absurd hs herror
      | some e => rfl
    show (if _ then false else s.up.requestDone) = true
    rw [hsome, Bool.and_false, if_neg (by decide)]
    exact hstopped herror
  | readError hpc more =>
    exact uploads_of_idle (fun task h => by cases h) h.written_prefix (hidle (by rw [hpc]; rfl)) hstopped
  | sent hpc room alive => exact uploads_upTop h.written_prefix (hidle (by rw [hpc]; rfl)) hstopped
  | sendLost hpc gone =>
    have hwhole := hidle (by rw [hpc]; rfl)
    unfold onSendLost
    split
    · exact uploads_upTop h.written_prefix hwhole hstopped
    · exact uploads_of_idle (fun task h => by cases h) h.written_prefix hwhole hstopped
  | failureSent hpc room alive =>
    exact uploads_of_idle (fun task h => by cases h) h.written_prefix (hidle (by rw [hpc]; rfl)) hstopped
  | failureLost hpc gone =>
    exact uploads_of_idle (fun task h => by cases h) h.written_prefix (hidle (by rw [hpc]; rfl)) hstopped
  | @take task requests hpc more received =>
    obtain ⟨htaken, -⟩ := Chan.recv_eq_some received
    refine ⟨?_, fun _ => ?_, fun herror => absurd (hopen more) herror⟩
    · show _ <+: dataOf requests.taken
      rw [htaken, dataOf_append]
      exact h.written_prefix.trans (List.prefix_append _ _)
    · show dataOf requests.taken = s.up.written.flatten ++ dataOf [task]
      rw [htaken, dataOf_append, hidle (by rw [hpc]; rfl) (hopen more)]
  | takeEnd hpc more empty gone =>
    exact ⟨h.written_prefix, fun hnone => (h.whole hnone).trans (by rw [hpc]; rfl),
      fun herror => absurd (hopen more) herror⟩
  | @uploaded task hpc =>
    have hnone : s.up.sendError = none := by
      by_contra herror
      exact (h.stopped herror).2 task hpc
    have hall : dataOf s.requests.taken = (s.up.written ++ (task.bind HttpTask.data).toList).flatten := by
      rw [h.whole hnone, hpc, List.flatten_append]
      cases task with
      | none => rfl
      | some task => exact congrArg _ (dataOf_singleton task)
    exact uploads_upTop (hall ▸ List.prefix_rfl) (fun _ => hall) (fun herror => absurd hnone herror)
  | uploadError hpc => exact uploads_upTop h.written_prefix (fun hnone => by cases hnone) (fun _ => rfl)

/-! ## The response's tasks -/

theorem filterTasks_append (as bs : List HttpTask) (f : ψ) : cfg.filterTasks f (as ++ bs) =
    (cfg.filterTasks f as).bind (fun a => (cfg.filterTasks a.2 bs).bind (fun b => .ok (a.1 ++ b.1, b.2))) := by
  induction as generalizing f with
  | nil =>
    show cfg.filterTasks f bs = (cfg.filterTasks f bs).bind _
    cases cfg.filterTasks f bs <;> rfl
  | cons a as ih =>
    show (cfg.responseFilter f a).bind _ = ((cfg.responseFilter f a).bind _).bind _
    cases cfg.responseFilter f a with
    | error e => rfl
    | ok r =>
      show (cfg.filterTasks r.2 (as ++ bs)).bind _ = ((cfg.filterTasks r.2 as).bind _).bind _
      rw [ih]
      cases cfg.filterTasks r.2 as with
      | error e => rfl
      | ok r' =>
        show ((cfg.filterTasks r'.2 bs).bind _).bind _ = (cfg.filterTasks r'.2 bs).bind _
        cases cfg.filterTasks r'.2 bs <;> rfl

/-- Filtering in two parts is filtering at once. -/
theorem filterTasks_append_ok {as bs as' bs' : List HttpTask} {f g k : ψ} (ha : cfg.filterTasks f as = .ok (as', g))
    (hb : cfg.filterTasks g bs = .ok (bs', k)) : cfg.filterTasks f (as ++ bs) = .ok (as' ++ bs', k) := by
  rw [filterTasks_append, ha]
  show (cfg.filterTasks g bs).bind _ = _
  rw [hb]
  rfl

def UpstreamPc.sends : UpstreamPc → List HttpTask
  | .sending task => [task]
  | .sendingFailure task => [task]
  | _ => []

def DownstreamPc.writes : DownstreamPc → List HttpTask
  | .writing tasks => tasks
  | _ => []

/-- The pipe holds the tasks that were read of the upstream. -/
structure Duplex.Reads (s : Duplex ψ) : Prop where
  sent_prefix : s.responses.sent <+: s.up.read
  whole : s.responses.receiverAlive = true → s.responses.sent ++ s.up.pc.sends = s.up.read

/-- The client is written the tasks of the pipe, filtered, up to an error. -/
structure Duplex.Writes (cfg : DuplexConfig ψ) (s : Duplex ψ) : Prop where
  wrote : ∃ relayed f, relayed <+: s.responses.taken ∧ cfg.filterTasks cfg.filterStart relayed = .ok (s.down.wrote, f)
  whole : cfg.filterTasks cfg.filterStart s.responses.taken = .ok (s.down.wrote ++ s.down.pc.writes, s.down.filter) ∨
    ∃ r, s.down.pc = .returned (.error r)

theorem reads_upTop (h : s.responses.receiverAlive = true → s.responses.sent = s.up.read)
    (hpre : s.responses.sent <+: s.up.read) : s.upTop.Reads := by
  have hwhole : s.responses.receiverAlive = true → s.responses.sent ++ [] = s.up.read := by
    intro halive
    rw [List.append_nil, h halive]
  obtain ⟨-, -, htop⟩ | ⟨-, htop⟩ := s.upTop_cases
  · rw [htop]
    exact ⟨hpre, hwhole⟩
  · rw [htop]
    exact ⟨hpre, hwhole⟩

theorem reads_up (h : s.Reads) (hstep : UpstreamStep cfg s e t) : t.Reads := by
  have hidle : s.up.pc.sends = [] → s.responses.receiverAlive = true → s.responses.sent = s.up.read := by
    intro hpc halive
    rw [← h.whole halive, hpc, List.append_nil]
  have hgone : ∀ {P : Prop}, s.responses.receiverAlive = false → s.responses.receiverAlive = true → P := by
    intro P hfalse htrue
    rw [hfalse] at htrue
    cases htrue
  cases hstep with
  | @read task hpc more =>
    refine ⟨h.sent_prefix.trans (List.prefix_append _ _), fun halive => ?_⟩
    exact congrArg (· ++ [task]) (hidle (by rw [hpc]; rfl) halive)
  | @readError e hpc more =>
    refine ⟨h.sent_prefix.trans (List.prefix_append _ _), fun halive => ?_⟩
    exact congrArg (· ++ [_]) (hidle (by rw [hpc]; rfl) halive)
  | @sent task hpc room alive =>
    have hall : s.responses.sent ++ [task] = s.up.read := by
      have := h.whole alive
      rwa [hpc] at this
    exact reads_upTop (fun _ => hall) (hall ▸ List.prefix_rfl)
  | sendLost hpc gone =>
    unfold onSendLost
    split
    · exact reads_upTop (hgone gone) h.sent_prefix
    · exact ⟨h.sent_prefix, hgone gone⟩
  | @failureSent task hpc room alive =>
    have hall : s.responses.sent ++ [task] = s.up.read := by
      have := h.whole alive
      rwa [hpc] at this
    exact ⟨hall ▸ List.prefix_rfl, fun _ => (List.append_nil _).trans hall⟩
  | failureLost hpc gone => exact ⟨h.sent_prefix, hgone gone⟩
  | take hpc => exact ⟨h.sent_prefix, fun halive => (List.append_nil _).trans (hidle (by rw [hpc]; rfl) halive)⟩
  | takeEnd hpc => exact ⟨h.sent_prefix, fun halive => (List.append_nil _).trans (hidle (by rw [hpc]; rfl) halive)⟩
  | uploaded hpc => exact reads_upTop (hidle (by rw [hpc]; rfl)) h.sent_prefix
  | uploadError hpc => exact reads_upTop (hidle (by rw [hpc]; rfl)) h.sent_prefix

theorem writes_downTop (h : cfg.filterTasks cfg.filterStart s.responses.taken = .ok (s.down.wrote, s.down.filter)) :
    s.downTop.Writes cfg := by
  have hwhole : cfg.filterTasks cfg.filterStart s.responses.taken = .ok (s.down.wrote ++ [], s.down.filter) := by
    rw [h, List.append_nil]
  obtain ⟨-, -, htop⟩ | ⟨-, htop⟩ := s.downTop_cases
  · rw [htop]
    exact ⟨⟨_, _, List.prefix_rfl, h⟩, .inl hwhole⟩
  · rw [htop]
    exact ⟨⟨_, _, List.prefix_rfl, h⟩, .inl hwhole⟩

theorem writes_down (h : s.Writes cfg) (hstep : DownstreamStep cfg s e t) (hrun : s.aborted = false) :
    t.Writes cfg := by
  have hwhole := h.whole.resolve_right (fun ⟨r, hr⟩ => down_not_failed hrun r hr)
  have hidle : s.down.pc.writes = [] →
      cfg.filterTasks cfg.filterStart s.responses.taken = .ok (s.down.wrote, s.down.filter) := by
    intro hpc
    rwa [hpc, List.append_nil] at hwhole
  have hreturn : ∀ r : ProxyError, (s.downReturn (.error r)).Writes cfg := fun r => ⟨h.wrote, .inr ⟨r, rfl⟩⟩
  cases hstep with
  | start hpc room alive =>
    have hs := hidle (by rw [hpc]; rfl)
    obtain ⟨-, h⟩ | ⟨seen, h | ⟨hbuffer, h⟩ | ⟨task, htask, -, h⟩⟩ := onStart_cases cfg s room
    · rw [h]
      exact writes_downTop hs
    · rw [h]
      exact ⟨⟨_, _, List.prefix_rfl, hs⟩, .inr ⟨_, rfl⟩⟩
    · rw [h]
      exact writes_downTop hs
    · rw [h]
      exact writes_downTop hs
  | startRefused => exact hreturn _
  | startWithout hpc => exact writes_downTop (hidle (by rw [hpc]; rfl))
  | @body data bodyDone hpc room reading expected ended =>
    have hs := hidle (by rw [hpc]; rfl)
    obtain ⟨seen, h | ⟨-, hdata, h⟩ | ⟨task, htask, h⟩⟩ := onBody_cases cfg s room data bodyDone
    · rw [h]
      exact ⟨⟨_, _, List.prefix_rfl, hs⟩, .inr ⟨_, rfl⟩⟩
    · rw [h]
      exact writes_downTop hs
    · rw [h]
      exact writes_downTop hs
  | bodyError => exact hreturn _
  | permit hpc => exact writes_downTop (hidle (by rw [hpc]; rfl))
  | @tasks permit tasks filter hpc more waits filtered =>
    have hs := hidle (by rw [hpc]; rfl)
    refine ⟨⟨s.responses.taken, _, ?_, hs⟩, .inl ?_⟩
    · rw [onTasks]
      show _ <+: s.responses.recvAll.taken
      rw [Chan.taken_recvAll]
      exact s.responses.taken_prefix
    · show cfg.filterTasks cfg.filterStart s.responses.recvAll.taken = .ok (s.down.wrote ++ tasks, filter)
      rw [Chan.taken_recvAll, ← s.responses.taken_append_waiting]
      exact filterTasks_append_ok hs filtered
  | tasksRefused => exact hreturn _
  | upstreamGone hpc => exact writes_downTop (hidle (by rw [hpc]; rfl))
  | @wrote tasks finished bodyDone hpc clean =>
    have hs : cfg.filterTasks cfg.filterStart s.responses.taken = .ok (s.down.wrote ++ tasks, s.down.filter) := by
      rwa [hpc] at hwhole
    unfold onWrote
    dsimp only
    split
    · exact writes_downTop hs
    · exact writes_downTop hs
  | writeError => exact hreturn _

/-! ## Whole runs -/

/-- What each handler keeps of what it relays. -/
structure Duplex.Relays (cfg : DuplexConfig ψ) (s : Duplex ψ) : Prop where
  piped : s.Piped
  uploads : s.Uploads
  reads : s.Reads
  writes : s.Writes cfg

theorem relays_start (cfg : DuplexConfig ψ) : (Duplex.start cfg).Relays cfg where
  piped := ⟨fun _ => rfl, List.prefix_rfl, .inl rfl⟩
  uploads := uploads_of_idle (fun task h => by cases h) List.prefix_rfl (fun _ => rfl) (fun h => absurd rfl h)
  reads := ⟨List.prefix_rfl, fun _ => rfl⟩
  writes := ⟨⟨[], _, List.prefix_rfl, rfl⟩, .inl rfl⟩

theorem relays_step (h : s.Relays cfg) (hstep : Duplex.Step cfg s e t) : t.Relays cfg := by
  obtain ⟨hrun, hdown | hup⟩ := hstep
  · have hkeeps := hdown.keeps
    refine ⟨piped_down h.piped hdown hrun, ?_, ?_, writes_down h.writes hdown hrun⟩
    · obtain ⟨hpre, hwhole, hstopped⟩ := h.uploads
      constructor
      · rwa [hkeeps.up, hkeeps.taken]
      · rwa [hkeeps.up, hkeeps.taken]
      · rwa [hkeeps.up]
    · obtain ⟨hpre, hwhole⟩ := h.reads
      constructor
      · rwa [hkeeps.up, hkeeps.sent]
      · intro halive
        rw [hkeeps.up, hkeeps.sent]
        exact hwhole (hkeeps.alive halive)
  · have hkeeps := hup.keeps
    refine ⟨?_, uploads_up h.uploads hup, reads_up h.reads hup, ?_⟩
    · obtain ⟨hstarting, hpre, hwhole⟩ := h.piped
      constructor
      · rwa [hkeeps.down, hkeeps.sent]
      · rwa [hkeeps.down, hkeeps.sent]
      · rwa [hkeeps.down, hkeeps.sent]
    · obtain ⟨hwrote, hwhole⟩ := h.writes
      constructor
      · rwa [hkeeps.down, hkeeps.taken]
      · rwa [hkeeps.down, hkeeps.taken]

theorem relays_of_run {es : List DuplexEvent} (h : Runs.Run (Duplex.Step cfg) (Duplex.start cfg) es s) :
    s.Relays cfg :=
  h.invariant (fun _ _ _ => relays_step) (relays_start cfg)

/-- **Bytes and tasks are relayed in order, with none left out and none twice.** -/
theorem relayed_in_order {es : List DuplexEvent} (h : Runs.Run (Duplex.Step cfg) (Duplex.start cfg) es s) :
    s.up.written.flatten <+: s.down.chunks.flatten ∧
      ∃ relayed f, relayed <+: s.up.read ∧ cfg.filterTasks cfg.filterStart relayed = .ok (s.down.wrote, f) := by
  have hrelays := relays_of_run h
  constructor
  · have htaken : dataOf s.requests.taken <+: dataOf s.requests.sent := by
      rw [← s.requests.taken_append_waiting, dataOf_append]
      exact List.prefix_append _ _
    exact (hrelays.uploads.written_prefix.trans htaken).trans hrelays.piped.sent_prefix
  · obtain ⟨relayed, f, hpre, hfiltered⟩ := hrelays.writes.wrote
    exact ⟨relayed, f, (hpre.trans s.responses.taken_prefix).trans hrelays.reads.sent_prefix, hfiltered⟩

theorem run_of_next {es : List DuplexEvent} (h : es.foldlM (Duplex.next cfg) s = some t) :
    Runs.Run (Duplex.Step cfg) s es t :=
  (Runs.run_of_foldlM h).mono (fun _ _ _ => next_sound)

/-- A request whose response is not filtered. -/
def DuplexConfig.unfiltered (upgrade : Bool) : DuplexConfig Unit where
  maxBody := none
  upgradeAsked := upgrade
  upgradeSent := upgrade
  bodyEmpty := false
  bodyDone := false
  retryBuffer := none
  bodySeen := 0
  filterStart := ()
  responseFilter := fun _ task => .ok (task, ())
  done_of_empty := fun h => h
  sent_of_asked := id
  filter_keeps := fun h => by cases h; exact ⟨rfl, rfl, rfl⟩

/-- A chunk that is also the request's end, and a response of a head and a chunk. -/
def echoRun : List DuplexEvent :=
  [.start, .body (.ok (some [104])) true, .take, .uploaded (.ok ()), .read (.ok (.header ⟨200, ⟨[]⟩⟩ false)), .sent,
    .read (.ok (.body (some [105]) true)), .sent, .tasks, .wrote (.ok true) true]

theorem echo_completes : ∃ s, Runs.Run (Duplex.Step (.unfiltered false)) (Duplex.start (.unfiltered false)) echoRun s ∧
    s.Completed ∧ s.down.writerFinished = false ∧ s.requests.sent = [.body (some [104]) true] ∧
    s.up.bodyFinished = true ∧ s.up.wasUpgraded = false :=
  ⟨_, run_of_next rfl, ⟨rfl, rfl⟩, rfl, rfl, rfl, rfl⟩

theorem relayed_in_order_echo :
    ∃ s, Runs.Run (Duplex.Step (.unfiltered false)) (Duplex.start (.unfiltered false)) echoRun s ∧ s.Completed ∧
      s.up.written.flatten <+: s.down.chunks.flatten ∧
      ∃ relayed f, relayed <+: s.up.read ∧
        (DuplexConfig.unfiltered false).filterTasks () relayed = .ok (s.down.wrote, f) := by
  obtain ⟨s, hrun, hcompleted, -⟩ := echo_completes
  exact ⟨s, hrun, hcompleted, relayed_in_order hrun⟩

end Zaphyl
