import Zaphyl.BodylessResponses
import Zaphyl.CachedBody
import Zaphyl.Mpsc
import Zaphyl.RequestBody
/-!
# Http3Streams — a forwarded request of the HTTP/3 listener, step by step

A task of its own reads the client's half of the stream and sends its chunks into a channel of four, from which the
upstream client takes them, while the request's task relays the response on the other half.  Their steps and those of
the client and the upstream come in any order.
-/
namespace Zaphyl

open Mpsc

namespace Http3

/-! ## The client's half -/

/-- What the forwarder task waits for. -/
inductive ForwarderPc
  | receiving
  | sending (bytes : Bytes)
  | ended
deriving DecidableEq

/-- The capacity of the channel between the forwarder and the upstream client. -/
def channelSize : Nat := 4

/-- `rest` is what the client's stream has yet to yield, and `bodyEnded` that the upstream client has seen the end of
the body. -/
structure Upload where
  rest : ClientStream
  seen : Nat
  forwarder : ForwarderPc
  channel : Chan Bytes channelSize
  bodyEnded : Bool

inductive UploadEvent
  | recvData
  | send
  | take
  | takeEnd
  | dropReceiver
deriving DecidableEq

namespace Upload

def start (s : ClientStream) : Upload := ⟨s, 0, .receiving, .new, false⟩

/-- The forwarder leaves its loop. -/
def stop (u : Upload) : Upload := { u with forwarder := .ended, channel := u.channel.dropSender }

/-- The client's stream yields a chunk, its end or an error. -/
def onRecvData (maxBody : Option Nat) (u : Upload) : Upload :=
  match u.rest with
  | .chunk bytes rest =>
    let seen := if maxBody.isSome then u.seen + bytes.length else u.seen
    if maxBody.any (fun max => seen > max) then { u with rest := rest, seen := seen }.stop
    else { u with rest := rest, seen := seen, forwarder := .sending bytes }
  | .finished => u.stop
  | .failed => u.stop

def next (maxBody : Option Nat) (u : Upload) : UploadEvent → Option Upload
  | .recvData =>
    match u.forwarder with
    | .receiving => some (u.onRecvData maxBody)
    | _ => none
  | .send =>
    match u.forwarder with
    | .sending bytes =>
      -- a send waits for room, and fails once the receiver is gone
      if u.channel.receiverAlive then
        if room : u.channel.HasRoom then
          some { u with channel := u.channel.send bytes room, forwarder := .receiving }
        else none
      else some u.stop
    | _ => none
  | .take => u.channel.recv.bind (fun r => if u.channel.receiverAlive then some { u with channel := r.2 } else none)
  | .takeEnd =>
    if u.channel.receiverAlive && !u.channel.senderAlive && u.channel.waiting.isEmpty then
      some { u with bodyEnded := true }
    else none
  | .dropReceiver => some { u with channel := u.channel.dropReceiver }

end Upload

/-! ## The response's half -/

/-- What the request's task waits for, from the upstream request on. -/
inductive RelayPc
  | requesting
  | sendingTimeout
  | finishingTimeout
  | sendingHead (head : ResponseHead)
  | receiving
  | sendingData (chunk : Bytes)
  | sendingTail (tail : Bytes)
  | finishing
  | returned
  | failed
  | panicked

/-- What a forwarded request is relayed by: the listener's settings, the request and its route, and the key under which
its response may be stored. -/
structure StreamConfig where
  heads : HeadSettings
  encoder : BodyEncoder
  req : Request
  matched : Option Route
  maxBodyBytes : Option Nat
  readTimeout : Option Duration
  cacheKey : Option Str
  maxBody : Nat

/-- `cacheStore` and `cacheBuf` are what the task gathers to store, and `coder` is its encoder.  `head`, `frames` and
`ended` record what the upstream has answered, `sentHead`, `sentData` and `finished` what the client was sent, and
`stored` what was put and when. -/
structure Download (encoder : BodyEncoder) where
  pc : RelayPc
  cacheStore : Option AcceptedResponse
  cacheBuf : Bytes × Bool
  coder : Option encoder.State
  head : Option ResponseHead
  frames : List Bytes
  ended : Bool
  sentHead : Option ResponseHead
  sentData : List Bytes
  finished : Bool
  finishedAt : SystemTime
  stored : Option Store

/-- What the task's awaits come back with; `failed` is an error of the upstream, the client or the encoder. -/
inductive DownloadEvent
  | responds (head : ResponseHead)
  | timesOut
  | data (bytes : Bytes)
  | trailers
  | ends
  | written (now : SystemTime)
  | fails

namespace StreamConfig

variable (cfg : StreamConfig)

/-- The head before any encoding here. -/
def parts (head : ResponseHead) : ResponseHead := relayed cfg.matched head

def encoding (head : ResponseHead) : Option Str := Http3.encoding cfg.heads cfg.req (cfg.parts head)

def cacheStore (head : ResponseHead) : Option AcceptedResponse :=
  cfg.cacheKey.bind (fun key => (upstreamTtl (cfg.parts head)).map (fun ttl =>
    ⟨key, ttl, head.status, storedHeaders (cfg.parts head).headers⟩))

end StreamConfig

namespace Download

variable (cfg : StreamConfig)

def start : Download cfg.encoder :=
  ⟨.requesting, none, ([], false), none, none, [], false, none, [], false, .epoch, none⟩

variable {cfg} (d : Download cfg.encoder)

def onData (bytes : Bytes) : Download cfg.encoder :=
  let gathered := { d with
    frames := d.frames ++ [bytes]
    cacheBuf := accumulateCacheBody d.cacheStore.isSome d.cacheBuf bytes cfg.maxBody }
  match d.coder with
  | some state =>
    let pushed := cfg.encoder.push state bytes
    { gathered with
      coder := some pushed.2
      pc := if pushed.1.isEmpty then .receiving else .sendingData pushed.1 }
  | none => { gathered with pc := .sendingData bytes }

def onEnd : Download cfg.encoder :=
  match d.coder with
  | some state =>
    let tail := cfg.encoder.finish state
    { d with ended := true, coder := none, pc := if tail.isEmpty then .finishing else .sendingTail tail }
  | none => { d with ended := true, pc := .finishing }

/-- The stream is finished, and the response stored if it may be. -/
def onFinished (now : SystemTime) : Download cfg.encoder :=
  let finished := { d with finished := true, finishedAt := now }
  match d.cacheStore with
  | some r =>
    if d.cacheBuf.2 then { finished with pc := .returned }
    else
      match now.add r.ttl with
      | .ok expiry =>
        { finished with stored := some ⟨r.key, expiry, ⟨r.status, r.headers, d.cacheBuf.1⟩⟩, pc := .returned }
      | .error _ => { finished with pc := .panicked }
  | none => { finished with pc := .returned }

/-- The write that the task waits for is done. -/
def onWritten (now : SystemTime) : Option (Download cfg.encoder) :=
  match d.pc with
  | .sendingTimeout => some { d with sentHead := some ⟨504, ⟨[]⟩⟩, pc := .finishingTimeout }
  | .finishingTimeout => some { d with finished := true, finishedAt := now, pc := .returned }
  | .sendingHead head =>
    some { d with
      sentHead := some (relay cfg.heads cfg.req cfg.matched head)
      coder := (cfg.encoding head).map cfg.encoder.new
      pc := .receiving }
  | .sendingData chunk => some { d with sentData := d.sentData ++ [chunk], pc := .receiving }
  | .sendingTail tail => some { d with sentData := d.sentData ++ [tail], pc := .finishing }
  | .finishing => some (d.onFinished now)
  | _ => none

def hasEnded : Bool :=
  match d.pc with
  | .returned => true
  | .failed => true
  | .panicked => true
  | _ => false

def next : DownloadEvent → Option (Download cfg.encoder)
  | .responds head =>
    match d.pc with
    | .requesting =>
      some { d with head := some head, cacheStore := cfg.cacheStore head, pc := .sendingHead head }
    | _ => none
  | .timesOut =>
    match d.pc with
    | .requesting => if cfg.readTimeout.isSome then some { d with pc := .sendingTimeout } else none
    | _ => none
  | .data bytes =>
    match d.pc with
    | .receiving => some (d.onData bytes)
    | _ => none
  | .trailers =>
    match d.pc with
    | .receiving => some d
    | _ => none
  | .ends =>
    match d.pc with
    | .receiving => some d.onEnd
    | _ => none
  | .written now => d.onWritten now
  | .fails => if d.hasEnded then none else some { d with pc := .failed }

end Download

/-! ## The two halves -/

structure Streams (cfg : StreamConfig) where
  upload : Upload
  download : Download cfg.encoder

inductive StreamEvent
  | up (e : UploadEvent)
  | down (e : DownloadEvent)

namespace Streams

variable (cfg : StreamConfig)

def start (s : ClientStream) : Streams cfg := ⟨.start s, .start cfg⟩

variable {cfg}

def next (s : Streams cfg) : StreamEvent → Option (Streams cfg)
  | .up e => (s.upload.next cfg.maxBodyBytes e).map (fun u => { s with upload := u })
  | .down e => (s.download.next e).map (fun d => { s with download := d })

def Step (s : Streams cfg) (e : StreamEvent) (t : Streams cfg) : Prop := s.next e = some t

end Streams

/-! ## A stream -/

/-- An encoder of bytes that are left as they are. -/
def identityEncoder : BodyEncoder := ⟨Unit, fun _ => (), fun _ chunk => (chunk, ()), fun _ => []⟩

def pageRoute : Route := Route.new none none [Target.new "127.0.0.1:3000".toList false "127.0.0.1".toList]

/-- A page that may be stored, behind an upload of four bytes at most. -/
def pageStream : StreamConfig where
  heads := relaying false
  encoder := identityEncoder
  req := getWithHost "a.test".toList ['/']
  matched := some pageRoute
  maxBodyBytes := some 4
  readTimeout := none
  cacheKey := some "a.test/".toList
  maxBody := 65536

def fiveBytes : ClientStream := .chunk [1, 2, 3] (.chunk [4, 5] .finished)

/-- The page is relayed while the upload goes on. -/
def pageEvents : List StreamEvent :=
  [.up .recvData, .up .send, .down (.responds (okHead [("cache-control", "max-age=60")])), .down (.written .epoch),
    .up .recvData, .down (.data [104, 105]), .up .take, .down (.written .epoch), .up .takeEnd, .down .ends,
    .down (.written .epoch)]

theorem pageEvents_run : ∃ t, pageEvents.foldlM Streams.next (Streams.start pageStream fiveBytes) = some t ∧
    t.upload.bodyEnded = true ∧ t.download.finished = true ∧ t.download.sentData = [[104, 105]] ∧
    t.download.stored.isSome = true := ⟨_, rfl, rfl, rfl, rfl, rfl⟩

end Http3

end Zaphyl
