import Zaphyl.BodyFilter
import Zaphyl.Mpsc
import Zaphyl.UpstreamFailure
/-!
# Duplex — the two handlers of an HTTP/1 upstream connection

One handler talks to the client and one to the upstream; a bounded pipe runs each way between them.  Both run until
they return, and an error of either ends the other at once.  The sessions of the two connections answer as they like:
what is read and when, which writes fail, when the client's body is done.
-/
namespace Zaphyl

open Mpsc

structure ProxyError where
  etype : ErrorType
  source : ErrorSource
deriving DecidableEq

def ProxyError.intoUp (e : ProxyError) : ProxyError := { e with source := .upstream }

def ProxyError.intoDown (e : ProxyError) : ProxyError := { e with source := .downstream }

inductive HttpTask
  | header (head : ResponseHead) (ends : Bool)
  | body (data : Option Bytes) (ends : Bool)
  | upgradedBody (data : Option Bytes) (ends : Bool)
  | trailer (lines : Option HeaderMap)
  | done
  | failed (e : ProxyError)
deriving DecidableEq

namespace HttpTask

def isEnd : HttpTask → Bool
  | header _ ends => ends
  | body _ ends => ends
  | upgradedBody _ ends => ends
  | trailer _ => true
  | done => true
  | failed _ => true

def isFailed : HttpTask → Bool
  | failed _ => true
  | _ => false

/-- The data of a request task. -/
def data : HttpTask → Option Bytes
  | body data _ => data
  | upgradedBody data _ => data
  | _ => none

/-- A head that turns the connection of an upgrade request into a tunnel. -/
def switches : HttpTask → Bool
  | header head _ => head.status = 101
  | _ => false

end HttpTask

inductive DownstreamState
  | reading
  | readingFinished
  | errored
deriving DecidableEq

namespace DownstreamState

def new (finished : Bool) : DownstreamState := if finished then readingFinished else reading

def canPoll (d : DownstreamState) : Bool := d ≠ errored

def isReading (d : DownstreamState) : Bool := d = reading

def isDone (d : DownstreamState) : Bool := d ≠ reading

def maybeFinished (d : DownstreamState) (set : Bool) : DownstreamState := if set then readingFinished else d

end DownstreamState

structure ResponseState where
  upstreamDone : Bool
  cachedDone : Bool
deriving DecidableEq

namespace ResponseState

def new : ResponseState := ⟨false, true⟩

def isDone (r : ResponseState) : Bool := r.upstreamDone && r.cachedDone

def maybeSetUpstreamDone (r : ResponseState) (done : Bool) : ResponseState :=
  if done then { r with upstreamDone := true } else r

end ResponseState

/-- `TASK_BUFFER_SIZE`. -/
def taskBufferSize : Nat := 4

/-- What the upstream handler waits for. -/
inductive UpstreamPc
  | select
  | sending (task : HttpTask)
  | sendingFailure (task : HttpTask)
  | uploading (task : Option HttpTask)
  | returned (result : Except ProxyError Unit)

/-- `proxy_handle_upstream` with its session: `read` and `written` are the tasks it read, an error as the failed task,
and the data it wrote. -/
structure UpstreamHandler where
  requestDone : Bool
  responseDone : Bool
  sendError : Option ProxyError
  upgraded : Bool
  pc : UpstreamPc
  wasUpgraded : Bool
  bodyFinished : Bool
  read : List HttpTask
  written : List Bytes

/-- What the downstream handler waits for; at its select it has a permit for the pipe or not. -/
inductive DownstreamPc
  | starting
  | select (permit : Bool)
  | writing (tasks : List HttpTask)
  | returned (result : Except ProxyError Unit)

/-- `proxy_handle_downstream` with its session: `chunks` and `wrote` are the data it read and the tasks it wrote, and
`writerFinished` tells that the body writer was finished by a write without the response's end. -/
structure DownstreamHandler (ψ : Type) where
  downstreamState : DownstreamState
  responseState : ResponseState
  pc : DownstreamPc
  filter : ψ
  bodySeen : Nat
  wasUpgraded : Bool
  bodyDone : Bool
  writerFinished : Bool
  chunks : List Bytes
  wrote : List HttpTask

/-- A request that goes to an HTTP/1 upstream.  Whether each connection's request asks for an upgrade (the upstream's is
the client's with lines set), what the client's session knows of the body, the copy of what was read for an earlier
upstream, and the filter of response tasks, which keeps their kind and their end. -/
structure DuplexConfig (ψ : Type) where
  maxBody : Option Nat
  upgradeAsked : Bool
  upgradeSent : Bool
  bodyEmpty : Bool
  bodyDone : Bool
  retryBuffer : Option Bytes
  bodySeen : Nat
  filterStart : ψ
  responseFilter : ψ → HttpTask → Except ProxyError (HttpTask × ψ)
  done_of_empty : bodyEmpty = true → bodyDone = true
  sent_of_asked : upgradeAsked = true → upgradeSent = true
  filter_keeps : ∀ {state state' task task'}, responseFilter state task = .ok (task', state') →
    task'.isEnd = task.isEnd ∧ task'.isFailed = task.isFailed ∧ task'.switches = task.switches

structure Duplex (ψ : Type) where
  up : UpstreamHandler
  down : DownstreamHandler ψ
  requests : Chan HttpTask taskBufferSize
  responses : Chan HttpTask taskBufferSize

variable {ψ : Type}

/-- The response filter over tasks in order; its first error is that of all. -/
def DuplexConfig.filterTasks (cfg : DuplexConfig ψ) : ψ → List HttpTask → Except ProxyError (List HttpTask × ψ)
  | state, [] => .ok ([], state)
  | state, task :: tasks => do
    let (task, state) ← cfg.responseFilter state task
    let (tasks, state) ← cfg.filterTasks state tasks
    .ok (task :: tasks, state)

/-- What `send_body_to_pipe` sends; an empty chunk that does not end the body is kept back. -/
def pipeTask (wasUpgraded : Bool) (data : Option Bytes) (ended : Bool) : Option HttpTask :=
  if !ended && decide (data = some []) then none
  else some (if wasUpgraded then .upgradedBody data ended else .body data ended)

/-- `send_body_to1` returns that the body is done for the last task, and for a pipe that is closed. -/
def bodyEnds : Option HttpTask → Bool
  | some (.body _ ends) => ends
  | some (.upgradedBody _ ends) => ends
  | _ => true

/-- `is_upgraded_task`: upgraded bytes or a closed pipe. -/
def isUpgradedTask : Option HttpTask → Bool
  | some (.upgradedBody _ _) => true
  | none => true
  | _ => false

/-- A task that ends the request: of a tunnel only upgraded bytes do. -/
def HttpTask.closes (wasUpgraded : Bool) (task : HttpTask) : Bool :=
  bodyEnds (some task) && (!wasUpgraded || isUpgradedTask (some task))

namespace Duplex

variable (cfg : DuplexConfig ψ) (s : Duplex ψ)

def start : Duplex ψ where
  up := ⟨false, false, none, false, .select, false, false, [], []⟩
  down := ⟨.new cfg.bodyDone, .new, .starting, cfg.filterStart, cfg.bodySeen, false, cfg.bodyDone, false, [], []⟩
  requests := .new
  responses := .new

/-- One of the handlers has returned an error, which ends both. -/
def aborted : Bool :=
  match s.up.pc, s.down.pc with
  | .returned (.error _), _ => true
  | _, .returned (.error _) => true
  | _, _ => false

/-- Both handlers have returned without an error. -/
def Completed : Prop := s.up.pc = .returned (.ok ()) ∧ s.down.pc = .returned (.ok ())

def upReturn (result : Except ProxyError Unit) : Duplex ψ :=
  { s with up := { s.up with pc := .returned result }, requests := s.requests.dropReceiver,
           responses := s.responses.dropSender }

def downReturn (result : Except ProxyError Unit) : Duplex ψ :=
  { s with down := { s.down with pc := .returned result }, requests := s.requests.dropSender,
           responses := s.responses.dropReceiver }

/-- The head of the upstream handler's loop. -/
def upTop : Duplex ψ :=
  if s.up.requestDone && s.up.responseDone then s.upReturn (.ok ())
  else { s with up := { s.up with pc := .select } }

/-- The head of the downstream handler's loop, where it tries to reserve a place in the pipe. -/
def downTop : Duplex ψ :=
  if s.down.downstreamState.isDone && s.down.responseState.isDone then s.downReturn (.ok ())
  else { s with down := { s.down with pc := .select s.requests.permits } }

/-! ### The downstream handler -/

def bodyTooLarge : ProxyError := ⟨.other "request body exceeds limit".toList, .unset⟩

/-- `send_body_to_pipe`: whether the body has ended. -/
def sendBodyToPipe (room : s.requests.HasRoom) (data : Option Bytes) (endOfBody : Bool) :
    Except ProxyError Bool × Duplex ψ :=
  let ended := endOfBody || data.isNone
  let filtered := requestBodyFilter cfg.maxBody s.down.bodySeen data
  let counted := { s with down := { s.down with bodySeen := filtered.2 } }
  if filtered.1 then
    match pipeTask s.down.wasUpgraded data ended with
    | none => (.ok false, counted)
    | some task => (.ok ended, { counted with requests := s.requests.send task room })
  else (.error bodyTooLarge, counted)

/-- The first send, of a retry buffer or of an empty body's end. -/
def onStart (room : s.requests.HasRoom) : Duplex ψ :=
  if cfg.retryBuffer.isSome || cfg.bodyEmpty then
    let read := { s with down := { s.down with chunks := cfg.retryBuffer.toList } }
    match sendBodyToPipe cfg read room cfg.retryBuffer s.down.downstreamState.isDone with
    | (.error e, t) => t.downReturn (.error e)
    | (.ok _, t) => t.downTop
  else s.downTop

/-- Bytes of the client's body, or its end; the end of a tunnel's bytes is that of its response too. -/
def onBody (room : s.requests.HasRoom) (data : Option Bytes) (bodyDone : Bool) : Duplex ψ :=
  let read := { s with down := { s.down with
    bodyDone := bodyDone
    chunks := s.down.chunks ++ data.toList
    responseState := s.down.responseState.maybeSetUpstreamDone (data.isNone && s.down.wasUpgraded) } }
  match sendBodyToPipe cfg read room data bodyDone with
  | (.error e, t) => t.downReturn (.error e)
  | (.ok ended, t) =>
    ({ t with down := { t.down with downstreamState := t.down.downstreamState.maybeFinished ended } }).downTop

/-- More room in the pipe, or its other end gone. -/
def onPermit : Duplex ψ :=
  ({ s with down := { s.down with
    downstreamState := s.down.downstreamState.maybeFinished (!s.requests.receiverAlive) } }).downTop

/-- All the tasks that wait, filtered, are to be written. -/
def onTasks (tasks : List HttpTask) (filter : ψ) : Duplex ψ :=
  { s with down := { s.down with pc := .writing tasks, filter := filter }, responses := s.responses.recvAll }

def onUpstreamGone : Duplex ψ :=
  ({ s with down := { s.down with responseState := s.down.responseState.maybeSetUpstreamDone true } }).downTop

/-- The tasks are written.  A response that ended, or whose body writer is finished, is done, but for the head of a
tunnel: it starts the client's bytes anew. -/
def onWrote (tasks : List HttpTask) (finished bodyDone : Bool) : Duplex ψ :=
  let responseDone := tasks.any HttpTask.isEnd || finished
  let wasUpgraded := s.down.wasUpgraded || cfg.upgradeAsked && tasks.any HttpTask.switches
  let wrote := { s.down with
    wasUpgraded := wasUpgraded
    writerFinished := s.down.writerFinished || finished && !tasks.any HttpTask.isEnd
    wrote := s.down.wrote ++ tasks }
  if !s.down.wasUpgraded && wasUpgraded then
    ({ s with down := { wrote with
      bodyDone := bodyDone
      downstreamState := if s.down.downstreamState.canPoll then .reading else s.down.downstreamState } }).downTop
  else
    ({ s with down := { wrote with
      bodyDone := s.down.bodyDone || bodyDone
      responseState := s.down.responseState.maybeSetUpstreamDone responseDone
      downstreamState := s.down.downstreamState.maybeFinished (s.down.bodyDone || bodyDone) } }).downTop

/-! ### The upstream handler -/

def pipeClosed : ProxyError := ⟨.other "InternalError".toList, .unset⟩

def onTask (task : HttpTask) : Duplex ψ :=
  let wasUpgraded := s.up.wasUpgraded || cfg.upgradeSent && task.switches
  let justUpgraded := !s.up.upgraded && wasUpgraded
  { s with up := { s.up with
    responseDone := task.isEnd
    wasUpgraded := wasUpgraded
    upgraded := s.up.upgraded || justUpgraded
    requestDone := if justUpgraded && s.up.sendError.isNone then false else s.up.requestDone
    read := s.up.read ++ [task]
    pc := .sending task } }

def onReadError (e : ProxyError) : Duplex ψ :=
  let failed := HttpTask.failed (s.up.sendError.getD e).intoUp
  { s with up := { s.up with read := s.up.read ++ [failed], pc := .sendingFailure failed } }

/-- The task is in the pipe. -/
def onSent (task : HttpTask) (room : s.responses.HasRoom) : Duplex ψ :=
  ({ s with responses := s.responses.send task room }).upTop

/-- The pipe's other end is gone, which a tunnel's end will tell. -/
def onSendLost : Duplex ψ := if s.up.wasUpgraded then s.upTop else s.upReturn (.error pipeClosed)

def onFailureSent (task : HttpTask) (room : s.responses.HasRoom) : Duplex ψ :=
  ({ s with responses := s.responses.send task room }).upReturn (.ok ())

/-- A request task, or the end of the pipe, is to be uploaded. -/
def onTake (task : Option HttpTask) (requests : Chan HttpTask taskBufferSize) : Duplex ψ :=
  { s with up := { s.up with pc := .uploading task }, requests := requests }

/-- The upload came through.  In a tunnel only upgraded bytes and a closed pipe finish the request, and the response
with it. -/
def onUploaded (task : Option HttpTask) : Duplex ψ :=
  let requestDone := if !s.up.wasUpgraded || isUpgradedTask task then bodyEnds task else s.up.requestDone
  ({ s with up := { s.up with
    requestDone := requestDone
    responseDone := s.up.responseDone || requestDone && s.up.wasUpgraded && isUpgradedTask task
    bodyFinished := s.up.bodyFinished || bodyEnds task
    written := s.up.written ++ (task.bind HttpTask.data).toList } }).upTop

def onUploadError (e : ProxyError) : Duplex ψ :=
  ({ s with up := { s.up with requestDone := true, sendError := some e } }).upTop

end Duplex

/-- What the handlers' awaits come back with. -/
inductive DuplexEvent
  | start
  | body (read : Except ProxyError (Option Bytes)) (bodyDone : Bool)
  | permit
  | tasks
  | upstreamGone
  | wrote (result : Except ProxyError Bool) (bodyDone : Bool)
  | read (result : Except ProxyError HttpTask)
  | sent
  | take
  | uploaded (result : Except ProxyError Unit)

open Duplex in
/-- The steps of the downstream handler. -/
inductive DownstreamStep (cfg : DuplexConfig ψ) (s : Duplex ψ) : DuplexEvent → Duplex ψ → Prop
  | start (hpc : s.down.pc = .starting) (room : s.requests.HasRoom) (alive : s.requests.receiverAlive = true) :
      DownstreamStep cfg s .start (s.onStart cfg room)
  | startRefused (hpc : s.down.pc = .starting) (gone : s.requests.receiverAlive = false)
      (sends : (cfg.retryBuffer.isSome || cfg.bodyEmpty) = true) :
      DownstreamStep cfg s .start (s.downReturn (.error pipeClosed))
  | startWithout (hpc : s.down.pc = .starting) (gone : s.requests.receiverAlive = false)
      (sends : (cfg.retryBuffer.isSome || cfg.bodyEmpty) = false) : DownstreamStep cfg s .start s.downTop
  | body {data : Option Bytes} {bodyDone : Bool} (hpc : s.down.pc = .select true) (room : s.requests.HasRoom)
      (reading : s.down.downstreamState.isDone = false) (expected : s.down.bodyDone = false)
      (ended : data = none → bodyDone = true) :
      DownstreamStep cfg s (.body (.ok data) bodyDone) (s.onBody cfg room data bodyDone)
  | bodyError {e : ProxyError} {bodyDone : Bool} (hpc : s.down.pc = .select true)
      (polls : s.down.downstreamState.canPoll = true) :
      DownstreamStep cfg s (.body (.error e) bodyDone) (s.downReturn (.error e.intoDown))
  | permit (hpc : s.down.pc = .select false) (reading : s.down.downstreamState.isReading = true)
      (ready : s.requests.HasRoom ∨ s.requests.receiverAlive = false) : DownstreamStep cfg s .permit s.onPermit
  | tasks {permit : Bool} {tasks : List HttpTask} {filter : ψ} (hpc : s.down.pc = .select permit)
      (more : s.down.responseState.upstreamDone = false) (waits : s.responses.waiting ≠ [])
      (filtered : cfg.filterTasks s.down.filter s.responses.waiting = .ok (tasks, filter)) :
      DownstreamStep cfg s .tasks (s.onTasks tasks filter)
  | tasksRefused {permit : Bool} {e : ProxyError} (hpc : s.down.pc = .select permit)
      (more : s.down.responseState.upstreamDone = false) (waits : s.responses.waiting ≠ [])
      (filtered : cfg.filterTasks s.down.filter s.responses.waiting = .error e) :
      DownstreamStep cfg s .tasks (s.downReturn (.error e))
  | upstreamGone {permit : Bool} (hpc : s.down.pc = .select permit) (more : s.down.responseState.upstreamDone = false)
      (empty : s.responses.waiting = []) (gone : s.responses.senderAlive = false) :
      DownstreamStep cfg s .upstreamGone s.onUpstreamGone
  | wrote {tasks : List HttpTask} {finished bodyDone : Bool} (hpc : s.down.pc = .writing tasks)
      (clean : tasks.any HttpTask.isFailed = false) :
      DownstreamStep cfg s (.wrote (.ok finished) bodyDone) (s.onWrote cfg tasks finished bodyDone)
  | writeError {tasks : List HttpTask} {e : ProxyError} {bodyDone : Bool} (hpc : s.down.pc = .writing tasks) :
      DownstreamStep cfg s (.wrote (.error e) bodyDone) (s.downReturn (.error e))

open Duplex in
/-- The steps of the upstream handler. -/
inductive UpstreamStep (cfg : DuplexConfig ψ) (s : Duplex ψ) : DuplexEvent → Duplex ψ → Prop
  | read {task : HttpTask} (hpc : s.up.pc = .select) (more : s.up.responseDone = false) :
      UpstreamStep cfg s (.read (.ok task)) (s.onTask cfg task)
  | readError {e : ProxyError} (hpc : s.up.pc = .select) (more : s.up.responseDone = false) :
      UpstreamStep cfg s (.read (.error e)) (s.onReadError e)
  | sent {task : HttpTask} (hpc : s.up.pc = .sending task) (room : s.responses.HasRoom)
      (alive : s.responses.receiverAlive = true) : UpstreamStep cfg s .sent (s.onSent task room)
  | sendLost {task : HttpTask} (hpc : s.up.pc = .sending task) (gone : s.responses.receiverAlive = false) :
      UpstreamStep cfg s .sent s.onSendLost
  | failureSent {task : HttpTask} (hpc : s.up.pc = .sendingFailure task) (room : s.responses.HasRoom)
      (alive : s.responses.receiverAlive = true) : UpstreamStep cfg s .sent (s.onFailureSent task room)
  | failureLost {task : HttpTask} (hpc : s.up.pc = .sendingFailure task) (gone : s.responses.receiverAlive = false) :
      UpstreamStep cfg s .sent (s.upReturn (.ok ()))
  | take {task : HttpTask} {requests : Chan HttpTask taskBufferSize} (hpc : s.up.pc = .select)
      (more : s.up.requestDone = false) (received : s.requests.recv = some (task, requests)) :
      UpstreamStep cfg s .take (s.onTake (some task) requests)
  | takeEnd (hpc : s.up.pc = .select) (more : s.up.requestDone = false) (empty : s.requests.waiting = [])
      (gone : s.requests.senderAlive = false) : UpstreamStep cfg s .take (s.onTake none s.requests)
  | uploaded {task : Option HttpTask} (hpc : s.up.pc = .uploading task) :
      UpstreamStep cfg s (.uploaded (.ok ())) (s.onUploaded task)
  | uploadError {task : Option HttpTask} {e : ProxyError} (hpc : s.up.pc = .uploading task) :
      UpstreamStep cfg s (.uploaded (.error e)) (s.onUploadError e)

/-- A step of `proxy_1to1`, which an error of a handler ends. -/
def Duplex.Step (cfg : DuplexConfig ψ) (s : Duplex ψ) (e : DuplexEvent) (t : Duplex ψ) : Prop :=
  s.aborted = false ∧ (DownstreamStep cfg s e t ∨ UpstreamStep cfg s e t)

open Duplex in
/-- The downstream handler's step as a function. -/
def Duplex.downNext (cfg : DuplexConfig ψ) (s : Duplex ψ) (e : DuplexEvent) : Option (Duplex ψ) :=
  match s.down.pc, e with
  | .starting, .start =>
    if s.requests.receiverAlive then
      if room : s.requests.HasRoom then some (s.onStart cfg room) else none
    else if cfg.retryBuffer.isSome || cfg.bodyEmpty then some (s.downReturn (.error pipeClosed))
    else some s.downTop
  | .select true, .body (.ok data) bodyDone =>
    if room : s.requests.HasRoom then
      if !s.down.downstreamState.isDone && !s.down.bodyDone && (data.isSome || bodyDone) then
        some (s.onBody cfg room data bodyDone)
      else none
    else none
  | .select true, .body (.error e) _ =>
    if s.down.downstreamState.canPoll then some (s.downReturn (.error e.intoDown)) else none
  | .select false, .permit =>
    if s.down.downstreamState.isReading && (decide s.requests.HasRoom || !s.requests.receiverAlive) then some s.onPermit
    else none
  | .select _, .tasks =>
    if s.down.responseState.upstreamDone || s.responses.waiting.isEmpty then none
    else
      match cfg.filterTasks s.down.filter s.responses.waiting with
      | .ok (tasks, filter) => some (s.onTasks tasks filter)
      | .error e => some (s.downReturn (.error e))
  | .select _, .upstreamGone =>
    if s.down.responseState.upstreamDone || !s.responses.waiting.isEmpty || s.responses.senderAlive then none
    else some s.onUpstreamGone
  | .writing tasks, .wrote (.ok finished) bodyDone =>
    if tasks.any HttpTask.isFailed then none else some (s.onWrote cfg tasks finished bodyDone)
  | .writing _, .wrote (.error e) _ => some (s.downReturn (.error e))
  | _, _ => none

open Duplex in
/-- The upstream handler's step as a function. -/
def Duplex.upNext (cfg : DuplexConfig ψ) (s : Duplex ψ) (e : DuplexEvent) : Option (Duplex ψ) :=
  match s.up.pc, e with
  | .select, .read (.ok task) => if s.up.responseDone then none else some (s.onTask cfg task)
  | .select, .read (.error e) => if s.up.responseDone then none else some (s.onReadError e)
  | .select, .take =>
    if s.up.requestDone then none
    else
      match s.requests.recv with
      | some (task, requests) => some (s.onTake (some task) requests)
      | none => if s.requests.senderAlive then none else some (s.onTake none s.requests)
  | .sending task, .sent =>
    if s.responses.receiverAlive then
      if room : s.responses.HasRoom then some (s.onSent task room) else none
    else some s.onSendLost
  | .sendingFailure task, .sent =>
    if s.responses.receiverAlive then
      if room : s.responses.HasRoom then some (s.onFailureSent task room) else none
    else some (s.upReturn (.ok ()))
  | .uploading task, .uploaded (.ok _) => some (s.onUploaded task)
  | .uploading _, .uploaded (.error e) => some (s.onUploadError e)
  | _, _ => none

/-- A step as a function: each event is of one of the handlers. -/
def Duplex.next (cfg : DuplexConfig ψ) (s : Duplex ψ) (e : DuplexEvent) : Option (Duplex ψ) :=
  if s.aborted then none else (s.downNext cfg e).or (s.upNext cfg e)

/-! ## What each handler does -/

section

variable {cfg : DuplexConfig ψ} {s t : Duplex ψ} {e : DuplexEvent}

namespace Duplex

theorem upTop_cases (s : Duplex ψ) :
    (s.up.requestDone = true ∧ s.up.responseDone = true ∧ s.upTop = s.upReturn (.ok ())) ∨
      ((s.up.requestDone = false ∨ s.up.responseDone = false) ∧
        s.upTop = { s with up := { s.up with pc := .select } }) := by
  unfold upTop
  cases hreq : s.up.requestDone with
  | false => exact .inr ⟨.inl rfl, rfl⟩
  | true =>
    cases hres : s.up.responseDone with
    | false => exact .inr ⟨.inr rfl, rfl⟩
    | true => exact .inl ⟨rfl, rfl, rfl⟩

theorem downTop_cases (s : Duplex ψ) :
    (s.down.downstreamState.isDone = true ∧ s.down.responseState.isDone = true ∧ s.downTop = s.downReturn (.ok ())) ∨
      ((s.down.downstreamState.isDone = false ∨ s.down.responseState.isDone = false) ∧
        s.downTop = { s with down := { s.down with pc := .select s.requests.permits } }) := by
  unfold downTop
  cases hreq : s.down.downstreamState.isDone with
  | false => exact .inr ⟨.inl rfl, rfl⟩
  | true =>
    cases hres : s.down.responseState.isDone with
    | false => exact .inr ⟨.inr rfl, rfl⟩
    | true => exact .inl ⟨rfl, rfl, rfl⟩

/-- What the downstream handler leaves as it is. -/
structure DownKeeps (s t : Duplex ψ) : Prop where
  up : t.up = s.up
  taken : t.requests.taken = s.requests.taken
  receiver : t.requests.receiverAlive = s.requests.receiverAlive
  sent : t.responses.sent = s.responses.sent
  sender : t.responses.senderAlive = s.responses.senderAlive
  alive : t.responses.receiverAlive = true → s.responses.receiverAlive = true

/-- What the upstream handler leaves as it is. -/
structure UpKeeps (s t : Duplex ψ) : Prop where
  down : t.down = s.down
  sent : t.requests.sent = s.requests.sent
  sender : t.requests.senderAlive = s.requests.senderAlive
  taken : t.responses.taken = s.responses.taken
  receiver : t.responses.receiverAlive = s.responses.receiverAlive
  alive : t.requests.receiverAlive = true → s.requests.receiverAlive = true
  room : s.requests.HasRoom → t.requests.HasRoom

theorem DownKeeps.trans {u : Duplex ψ} (h₁ : DownKeeps s t) (h₂ : DownKeeps t u) : DownKeeps s u where
  up := h₂.up.trans h₁.up
  taken := h₂.taken.trans h₁.taken
  receiver := h₂.receiver.trans h₁.receiver
  sent := h₂.sent.trans h₁.sent
  sender := h₂.sender.trans h₁.sender
  alive := fun h => h₁.alive (h₂.alive h)

theorem downKeeps_of_down (down : DownstreamHandler ψ) : DownKeeps s { s with down := down } :=
  ⟨rfl, rfl, rfl, rfl, rfl, id⟩

theorem downKeeps_downReturn (r : Except ProxyError Unit) : DownKeeps s (s.downReturn r) :=
  ⟨rfl, rfl, rfl, rfl, rfl, fun h => by cases h⟩

theorem downKeeps_downTop : DownKeeps s s.downTop := by
  obtain ⟨-, -, h⟩ | ⟨-, h⟩ := s.downTop_cases
  · rw [h]
    exact downKeeps_downReturn _
  · rw [h]
    exact downKeeps_of_down _

theorem UpKeeps.trans {u : Duplex ψ} (h₁ : UpKeeps s t) (h₂ : UpKeeps t u) : UpKeeps s u where
  down := h₂.down.trans h₁.down
  sent := h₂.sent.trans h₁.sent
  sender := h₂.sender.trans h₁.sender
  taken := h₂.taken.trans h₁.taken
  receiver := h₂.receiver.trans h₁.receiver
  alive := fun h => h₁.alive (h₂.alive h)
  room := fun h => h₂.room (h₁.room h)

theorem upKeeps_of_up (up : UpstreamHandler) : UpKeeps s { s with up := up } := ⟨rfl, rfl, rfl, rfl, rfl, id, id⟩

theorem upKeeps_send (task : HttpTask) (room : s.responses.HasRoom) :
    UpKeeps s { s with responses := s.responses.send task room } :=
  ⟨rfl, rfl, rfl, s.responses.taken_send task room, rfl, id, id⟩

theorem upKeeps_upReturn (r : Except ProxyError Unit) : UpKeeps s (s.upReturn r) :=
  ⟨rfl, rfl, rfl, rfl, rfl, fun h => (by cases h), id⟩

theorem upKeeps_upTop : UpKeeps s s.upTop := by
  obtain ⟨-, -, h⟩ | ⟨-, h⟩ := s.upTop_cases
  · rw [h]
    exact upKeeps_upReturn _
  · rw [h]
    exact upKeeps_of_up _

theorem sendBodyToPipe_cases (cfg : DuplexConfig ψ) (s : Duplex ψ) (room : s.requests.HasRoom) (data : Option Bytes)
    (endOfBody : Bool) :
    ∃ seen, let counted : Duplex ψ := { s with down := { s.down with bodySeen := seen } }
      s.sendBodyToPipe cfg room data endOfBody = (.error bodyTooLarge, counted) ∨
      (endOfBody = false ∧ data = some [] ∧ s.sendBodyToPipe cfg room data endOfBody = (.ok false, counted)) ∨
      ∃ task, task = (if s.down.wasUpgraded then HttpTask.upgradedBody data (endOfBody || data.isNone)
          else HttpTask.body data (endOfBody || data.isNone)) ∧
        s.sendBodyToPipe cfg room data endOfBody =
          (.ok (endOfBody || data.isNone), { counted with requests := s.requests.send task room }) := by
  refine ⟨(requestBodyFilter cfg.maxBody s.down.bodySeen data).2, ?_⟩
  unfold sendBodyToPipe pipeTask
  dsimp only
  split
  · split
    · rename_i hnone
      split at hnone
      · rename_i hempty
        rw [Bool.and_eq_true, Bool.not_eq_true', Bool.or_eq_false_iff, decide_eq_true_eq] at hempty
        exact .inr (.inl ⟨hempty.1.1, hempty.2, rfl⟩)
      · cases hnone
    · rename_i task hsome
      split at hsome
      · cases hsome
      · exact .inr (.inr ⟨task, (Option.some.inj hsome).symm, rfl⟩)
  · exact .inl rfl

/-- What comes of the client's bytes: the filter's error, an empty chunk kept back, or a task in the pipe. -/
theorem onBody_cases (cfg : DuplexConfig ψ) (s : Duplex ψ) (room : s.requests.HasRoom) (data : Option Bytes)
    (bodyDone : Bool) :
    ∃ seen, let read : DownstreamHandler ψ := { s.down with
        bodyDone := bodyDone
        chunks := s.down.chunks ++ data.toList
        responseState := s.down.responseState.maybeSetUpstreamDone (data.isNone && s.down.wasUpgraded)
        bodySeen := seen }
      s.onBody cfg room data bodyDone = ({ s with down := read }).downReturn (.error bodyTooLarge) ∨
      (bodyDone = false ∧ data = some [] ∧ s.onBody cfg room data bodyDone = ({ s with down := read }).downTop) ∨
      ∃ task, task = (if s.down.wasUpgraded then HttpTask.upgradedBody data (bodyDone || data.isNone)
          else HttpTask.body data (bodyDone || data.isNone)) ∧
        s.onBody cfg room data bodyDone = ({ s with
          down := { read with downstreamState := s.down.downstreamState.maybeFinished (bodyDone || data.isNone) }
          requests := s.requests.send task room }).downTop := by
  obtain ⟨seen, h⟩ := sendBodyToPipe_cases cfg ({ s with down := { s.down with
    bodyDone := bodyDone
    chunks := s.down.chunks ++ data.toList
    responseState := s.down.responseState.maybeSetUpstreamDone (data.isNone && s.down.wasUpgraded) } }) room data
    bodyDone
  refine ⟨seen, ?_⟩
  unfold onBody
  obtain h | ⟨hdone, hdata, h⟩ | ⟨task, htask, h⟩ := h
  · refine .inl ?_
    dsimp only at h ⊢
    rw [h]
  · refine .inr (.inl ⟨hdone, hdata, ?_⟩)
    dsimp only at h ⊢
    rw [h]
    rfl
  · refine .inr (.inr ⟨task, htask, ?_⟩)
    dsimp only at h ⊢
    rw [h]

theorem onStart_cases (cfg : DuplexConfig ψ) (s : Duplex ψ) (room : s.requests.HasRoom) :
    ((cfg.retryBuffer.isSome || cfg.bodyEmpty) = false ∧ s.onStart cfg room = s.downTop) ∨
    ∃ seen, let read : DownstreamHandler ψ := { s.down with chunks := cfg.retryBuffer.toList, bodySeen := seen }
      s.onStart cfg room = ({ s with down := read }).downReturn (.error bodyTooLarge) ∨
      (cfg.retryBuffer = some [] ∧ s.onStart cfg room = ({ s with down := read }).downTop) ∨
      ∃ task, task = (if s.down.wasUpgraded then HttpTask.upgradedBody cfg.retryBuffer
            (s.down.downstreamState.isDone || cfg.retryBuffer.isNone)
          else HttpTask.body cfg.retryBuffer (s.down.downstreamState.isDone || cfg.retryBuffer.isNone)) ∧
        (cfg.retryBuffer = none → cfg.bodyEmpty = true) ∧
        s.onStart cfg room = ({ s with down := read, requests := s.requests.send task room }).downTop := by
  obtain ⟨seen, h⟩ := sendBodyToPipe_cases cfg
    ({ s with down := { s.down with chunks := cfg.retryBuffer.toList } }) room cfg.retryBuffer
    s.down.downstreamState.isDone
  unfold onStart
  split
  · rename_i hsends
    refine .inr ⟨seen, ?_⟩
    obtain h | ⟨-, hdata, h⟩ | ⟨task, htask, h⟩ := h
    · refine .inl ?_
      dsimp only at h ⊢
      rw [h]
    · refine .inr (.inl ⟨hdata, ?_⟩)
      dsimp only at h ⊢
      rw [h]
    · refine .inr (.inr ⟨task, htask, fun hnone => ?_, ?_⟩)
      · rwa [hnone, Option.isSome_none, Bool.false_or] at hsends
      · dsimp only at h ⊢
        rw [h]
  · rename_i hsends
    exact .inl ⟨Bool.eq_false_iff.2 hsends, rfl⟩

end Duplex

open Duplex in
theorem DownstreamStep.keeps (h : DownstreamStep cfg s e t) : DownKeeps s t := by
  have htop : ∀ {u : Duplex ψ}, DownKeeps s u → DownKeeps s u.downTop := fun hu => hu.trans downKeeps_downTop
  have hreturn : ∀ {u : Duplex ψ} {r : Except ProxyError Unit}, DownKeeps s u → DownKeeps s (u.downReturn r) :=
    fun hu => hu.trans (downKeeps_downReturn _)
  have hsend : ∀ (down : DownstreamHandler ψ) (task : HttpTask) (room : s.requests.HasRoom),
      DownKeeps s { s with down := down, requests := s.requests.send task room } :=
    fun down task room => ⟨rfl, s.requests.taken_send task room, rfl, rfl, rfl, id⟩
  cases h with
  | start hpc room alive =>
    obtain ⟨-, h⟩ | ⟨seen, h | ⟨-, h⟩ | ⟨task, -, -, h⟩⟩ := onStart_cases cfg s room
    · rw [h]
      exact downKeeps_downTop
    · rw [h]
      exact hreturn (downKeeps_of_down _)
    · rw [h]
      exact htop (downKeeps_of_down _)
    · rw [h]
      exact htop (hsend _ task room)
  | startRefused => exact downKeeps_downReturn _
  | startWithout => exact downKeeps_downTop
  | @body data bodyDone hpc room reading expected ended =>
    obtain ⟨seen, h | ⟨-, -, h⟩ | ⟨task, -, h⟩⟩ := onBody_cases cfg s room data bodyDone
    · rw [h]
      exact hreturn (downKeeps_of_down _)
    · rw [h]
      exact htop (downKeeps_of_down _)
    · rw [h]
      exact htop (hsend _ task room)
  | bodyError => exact downKeeps_downReturn _
  | permit => exact htop (downKeeps_of_down _)
  | tasks => exact ⟨rfl, rfl, rfl, rfl, rfl, id⟩
  | tasksRefused => exact downKeeps_downReturn _
  | upstreamGone => exact htop (downKeeps_of_down _)
  | wrote =>
    unfold onWrote
    dsimp only
    split
    · exact htop (downKeeps_of_down _)
    · exact htop (downKeeps_of_down _)
  | writeError => exact downKeeps_downReturn _

open Duplex in
theorem UpstreamStep.keeps (h : UpstreamStep cfg s e t) : UpKeeps s t := by
  cases h with
  | read => exact upKeeps_of_up _
  | readError => exact upKeeps_of_up _
  | @sent task hpc room alive => exact (upKeeps_send task room).trans upKeeps_upTop
  | sendLost =>
    unfold onSendLost
    split
    · exact upKeeps_upTop
    · exact upKeeps_upReturn _
  | @failureSent task hpc room alive => exact (upKeeps_send task room).trans (upKeeps_upReturn _)
  | failureLost => exact upKeeps_upReturn _
  | take hpc more received =>
    obtain ⟨-, hwaits, hsent, hsender, hreceiver⟩ := Chan.recv_eq_some received
    refine ⟨rfl, hsent, hsender, rfl, rfl, fun h => by rwa [← hreceiver], fun h => ?_⟩
    rw [Chan.hasRoom_iff, hwaits] at h
    exact (Chan.hasRoom_iff _).2 (Nat.lt_of_succ_lt h)
  | takeEnd => exact upKeeps_of_up _
  | uploaded => exact (upKeeps_of_up _).trans upKeeps_upTop
  | uploadError => exact (upKeeps_of_up _).trans upKeeps_upTop

open Duplex in
theorem downNext_sound (h : s.downNext cfg e = some t) : DownstreamStep cfg s e t := by
  unfold downNext at h
  split at h
  · rename_i hpc
    split at h
    · rename_i halive
      split at h
      · cases h
        exact .start hpc _ halive
      · cases h
    · rename_i hgone
      split at h
      · rename_i hsends
        cases h
        exact .startRefused hpc (Bool.eq_false_iff.2 hgone) hsends
      · rename_i hsends
        cases h
        exact .startWithout hpc (Bool.eq_false_iff.2 hgone) (Bool.eq_false_iff.2 hsends)
  · rename_i data bodyDone hpc
    split at h
    · rename_i room
      split at h
      · rename_i hread
        cases h
        rw [Bool.and_eq_true, Bool.and_eq_true, Bool.not_eq_true', Bool.not_eq_true', Bool.or_eq_true] at hread
        obtain ⟨⟨hreading, hexpected⟩, hended⟩ := hread
        refine .body hpc room hreading hexpected (fun hnone => hended.resolve_left ?_)
        rw [hnone]
        exact Bool.false_ne_true
      · cases h
    · cases h
  · rename_i hpc
    split at h
    · rename_i hpolls
      cases h
      exact .bodyError hpc hpolls
    · cases h
  · rename_i hpc
    split at h
    · rename_i hready
      cases h
      rw [Bool.and_eq_true, Bool.or_eq_true, decide_eq_true_eq, Bool.not_eq_true'] at hready
      exact .permit hpc hready.1 hready.2
    · cases h
  · rename_i permit hpc
    split at h
    · cases h
    · rename_i hmore
      rw [Bool.or_eq_true, not_or, Bool.not_eq_true, List.isEmpty_iff] at hmore
      split at h
      · rename_i tasks filter hfiltered
        cases h
        exact .tasks hpc hmore.1 hmore.2 hfiltered
      · rename_i e hfiltered
        cases h
        exact .tasksRefused hpc hmore.1 hmore.2 hfiltered
  · rename_i permit hpc
    split at h
    · cases h
    · rename_i hmore
      rw [Bool.or_eq_true, Bool.or_eq_true, not_or, not_or, Bool.not_eq_true, Bool.not_eq_true', Bool.not_eq_false,
        List.isEmpty_iff, Bool.not_eq_true] at hmore
      cases h
      exact .upstreamGone hpc hmore.1.1 hmore.1.2 hmore.2
  · rename_i tasks finished bodyDone hpc
    split at h
    · cases h
    · rename_i hclean
      cases h
      exact .wrote hpc (Bool.eq_false_iff.2 hclean)
  · rename_i hpc
    cases h
    exact .writeError hpc
  · cases h

open Duplex in
theorem upNext_sound (h : s.upNext cfg e = some t) : UpstreamStep cfg s e t := by
  unfold upNext at h
  split at h
  · rename_i task hpc
    split at h
    · cases h
    · rename_i hmore
      cases h
      exact .read hpc (Bool.eq_false_iff.2 hmore)
  · rename_i e hpc
    split at h
    · cases h
    · rename_i hmore
      cases h
      exact .readError hpc (Bool.eq_false_iff.2 hmore)
  · rename_i hpc
    split at h
    · cases h
    · rename_i hmore
      split at h
      · rename_i task requests hrecv
        cases h
        exact .take hpc (Bool.eq_false_iff.2 hmore) hrecv
      · rename_i hrecv
        split at h
        · cases h
        · rename_i hgone
          cases h
          exact .takeEnd hpc (Bool.eq_false_iff.2 hmore) ((Chan.recv_eq_none_iff _).1 hrecv) (Bool.eq_false_iff.2 hgone)
  · rename_i task hpc
    split at h
    · rename_i halive
      split at h
      · rename_i room
        cases h
        exact .sent hpc room halive
      · cases h
    · rename_i hgone
      cases h
      exact .sendLost hpc (Bool.eq_false_iff.2 hgone)
  · rename_i task hpc
    split at h
    · rename_i halive
      split at h
      · rename_i room
        cases h
        exact .failureSent hpc room halive
      · cases h
    · rename_i hgone
      cases h
      exact .failureLost hpc (Bool.eq_false_iff.2 hgone)
  · rename_i hpc
    cases h
    exact .uploaded hpc
  · rename_i hpc
    cases h
    exact .uploadError hpc
  · cases h

theorem next_sound (h : s.next cfg e = some t) : Duplex.Step cfg s e t := by
  unfold Duplex.next at h
  split at h
  · cases h
  · rename_i hrun
    rw [Option.or_eq_some_iff] at h
    exact ⟨Bool.eq_false_iff.2 hrun, h.imp downNext_sound (fun hup => upNext_sound hup.2)⟩

end

end Zaphyl
