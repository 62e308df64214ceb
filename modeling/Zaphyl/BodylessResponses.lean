import Zaphyl.ForwardStage
import Zaphyl.ResponseHeaders
/-!
# BodylessResponses — what HTTP/3 sends after a head without a body

A HEAD request and an upstream's 204 or 304 have no body.  The stages of HTTP/3 look at neither the method nor the
status when they write one: a file is sent whole, and an encoder that is given no body still ends its stream
(`bodyless_iff`).
-/
namespace Zaphyl

/-- The streaming encoders by coding, at the configured level. -/
structure BodyEncoder where
  State : Type
  new : Str → State
  push : State → Bytes → Bytes × State
  finish : State → Bytes

namespace BodyEncoder

/-- What an encoder in a state gives out for the chunks of a body and its end. -/
def run (encoder : BodyEncoder) : encoder.State → List Bytes → Bytes
  | state, [] => encoder.finish state
  | state, chunk :: rest => (encoder.push state chunk).1 ++ run encoder (encoder.push state chunk).2 rest

/-- Every coding ends its stream with some bytes, of an empty body as well. -/
def Finishes (encoder : BodyEncoder) : Prop := ∀ coding, encoder.finish (encoder.new coding) ≠ []

end BodyEncoder

namespace Http3

/-- The bytes of a relayed body, compressed where a coding was negotiated. -/
def relayedBody (encoder : BodyEncoder) (cfg : HeadSettings) (req : Request) (matched : Option Route)
    (head : ResponseHead) (chunks : List Bytes) : Bytes :=
  match encoding cfg req (relayed matched head) with
  | some coding => encoder.run (encoder.new coding) chunks
  | none => chunks.flatten

/-- The bytes of an answer's DATA frames: `w` runs the plugins. -/
def answerBody (s : Server) (cfg : HeadSettings) (w : PluginWorld) (encoder : BodyEncoder) (v : Visit) : Answer → Bytes
  | .file contents => contents.getD []
  | .plugins chain request host target =>
    ((s.plugins.bind (fun plugins => (plugins.run w chain request host target).response)).map
      PluginResponse.body).getD []
  | .cached hit ifNoneMatch => if (notModifiedTag hit ifNoneMatch).isSome then [] else hit.body
  | .forwarded request =>
    ((v.origin request).map (fun a =>
      relayedBody encoder cfg v.req (s.proxy.upstreamRoute .http3 v.req) a.1 a.2)).getD []
  | .refused _ => []
  | .noTarget => []
  | .failed => []
  | .panicked _ => []

/-- The bytes that a visit is sent after the head. -/
def bodySent (s : Server) (cfg : HeadSettings) (w : PluginWorld) (encoder : BodyEncoder) (v : Visit) : Bytes :=
  answerBody s cfg w encoder v (proxyRequest s v).answer

/-- The response may have no body: the request is a HEAD, or the upstream's status is 204 or 304. -/
def ForbidsBody (s : Server) (v : Visit) : Prop :=
  v.req.method = "HEAD".toList ∨ ∃ request head chunks, (proxyRequest s v).answer = .forwarded request ∧
    v.origin request = some (head, chunks) ∧ (head.status = 204 ∨ head.status = 304)

/-- None of the places a body comes from has one: the file is missing or empty, the plugins' response has no body, and
the relayed response is not compressed. -/
structure NothingToSend (s : Server) (cfg : HeadSettings) (w : PluginWorld) (v : Visit) : Prop where
  file : ∀ contents, (proxyRequest s v).answer = .file (some contents) → contents = []
  plugins : ∀ chain request host target plugins response,
    (proxyRequest s v).answer = .plugins chain request host target → s.plugins = some plugins →
      (plugins.run w chain request host target).response = some response → response.body = []
  relayed : ∀ request head chunks, (proxyRequest s v).answer = .forwarded request →
    v.origin request = some (head, chunks) →
      encoding cfg v.req (relayed (s.proxy.upstreamRoute .http3 v.req) head) = none

end Http3

/-- The upstream client gives no frame of a body that the method or the status forbids. -/
def Visit.BodylessAnswers (v : Visit) : Prop :=
  ∀ request head chunks, v.origin request = some (head, chunks) →
    (request.method = "HEAD".toList ∨ head.status = 204 ∨ head.status = 304) → chunks = []

namespace Http3

/-! ## Where a HEAD goes -/

theorem tryPlugins_ne_cached (s : Server) (v : Visit) (hit : CachedResponse) (ifNoneMatch : Option Str) :
    (tryPlugins s v).1 ≠ some (.cached hit ifNoneMatch) := by
  intro h
  obtain ⟨_, _, _, -, -, -, -, hkinds⟩ := tryPlugins_answer h
  rcases hkinds with hkind | ⟨hkind, -⟩ | ⟨_, -, hkind, -⟩
  · cases hkind
  · cases hkind
  · cases hkind

theorem forward_ne_cached (s : Server) (v : Visit) (contacts : List OriginRequest) (storeKey : Option Str)
    (hit : CachedResponse) (ifNoneMatch : Option Str) :
    (forward s v contacts storeKey).answer ≠ .cached hit ifNoneMatch := by
  intro h
  unfold forward at h
  simp only at h
  split at h
  · split at h
    · cases h
    · split at h
      · cases h
      · cases h
  · cases h

/-- **A response is served from the cache to a GET only.** -/
theorem method_of_cached {s : Server} {v : Visit} {hit : CachedResponse} {ifNoneMatch : Option Str}
    (h : (proxyRequest s v).answer = .cached hit ifNoneMatch) : v.req.method = "GET".toList := by
  rcases proxyRequest_cases s v with ⟨_, hstage⟩ | ⟨_, hstage⟩ | ⟨answer, hran, hstage⟩ | ⟨answer, hcached, hstage⟩ |
    ⟨-, hstage⟩
  · rw [hstage] at h
    cases h
  · rw [hstage] at h
    cases h
  · rw [hstage] at h
    exact absurd (hran.trans (congrArg some h)) (tryPlugins_ne_cached s v hit ifNoneMatch)
  · -- the cache stage was reached, and looked the request up
    by_contra hmethod
    have hunused : ¬ ∃ cache l, (tryPlugins s v).2.cache = some cache ∧
        (tryPlugins s v).2.proxy.lookupOf .http3 v.req = some l := by
      rintro ⟨cache, l, -, hl⟩
      exact hmethod (method_of_cacheLookup hl)
    rw [Server.consultCache_of_unused hunused] at hcached
    cases hcached
  · rw [hstage] at h
    exact absurd h (forward_ne_cached _ _ _ _ _ _)

/-- A request is forwarded with its own method. -/
theorem method_of_forwarded {s : Server} {v : Visit} {request : OriginRequest}
    (h : (proxyRequest s v).answer = .forwarded request) : request.method = v.req.method := by
  obtain ⟨matched, target, -, hrequest⟩ := proxyRequest_forwarded h
  obtain ⟨-, -, rfl⟩ := upstreamRequest_eq_some_iff.1 hrequest
  rfl

/-! ## The body of a response without one -/

/-- An answer that is no file, no plugins' response and not forwarded has nothing to send. -/
theorem nothingToSend_of {s : Server} {cfg : HeadSettings} {w : PluginWorld} {v : Visit} {answer : Answer}
    (h : (proxyRequest s v).answer = answer) (hfile : ∀ contents, answer ≠ .file contents)
    (hplugins : ∀ chain request host target, answer ≠ .plugins chain request host target)
    (hforwarded : ∀ request, answer ≠ .forwarded request) : NothingToSend s cfg w v :=
  ⟨fun _ hf => absurd (h.symm.trans hf) (hfile _), fun _ _ _ _ _ _ hp => absurd (h.symm.trans hp) (hplugins _ _ _ _),
    fun _ _ _ hr => absurd (h.symm.trans hr) (hforwarded _)⟩

/-- Without a body to relay, the compressed bytes are the end of the stream. -/
theorem relayedBody_nil_iff {encoder : BodyEncoder} (hfinish : encoder.Finishes) (cfg : HeadSettings) (req : Request)
    (matched : Option Route) (head : ResponseHead) :
    relayedBody encoder cfg req matched head [] = [] ↔ encoding cfg req (relayed matched head) = none := by
  unfold relayedBody
  cases encoding cfg req (relayed matched head) with
  | none => exact iff_of_true rfl rfl
  | some coding => exact iff_of_false (hfinish coding) (by simp)

section

variable {s : Server} {cfg : HeadSettings} {w : PluginWorld} {encoder : BodyEncoder} {v : Visit}

theorem file_bodyless_iff {contents : Option Bytes} (hanswer : (proxyRequest s v).answer = .file contents) :
    answerBody s cfg w encoder v (.file contents) = [] ↔ NothingToSend s cfg w v := by
  constructor
  · intro hnil
    refine ⟨fun body hfile => ?_, fun _ _ _ _ _ _ hplugins => ?_, fun _ _ _ hforwarded => ?_⟩
    · cases hanswer.symm.trans hfile
      exact hnil
    · cases hanswer.symm.trans hplugins
    · cases hanswer.symm.trans hforwarded
  · intro h
    cases contents with
    | none => rfl
    | some body => exact h.file body hanswer

theorem plugins_bodyless_iff {chain : List Str} {request : PluginRequest} {host : Str} {target : Target}
    (hanswer : (proxyRequest s v).answer = .plugins chain request host target) :
    answerBody s cfg w encoder v (.plugins chain request host target) = [] ↔ NothingToSend s cfg w v := by
  have hbody : answerBody s cfg w encoder v (.plugins chain request host target) =
      ((s.plugins.bind (fun plugins => (plugins.run w chain request host target).response)).map
        PluginResponse.body).getD [] := rfl
  rw [hbody]
  constructor
  · intro hnil
    refine ⟨fun _ hfile => ?_, fun _ _ _ _ plugins response hplugins hrun hresponse => ?_, fun _ _ _ hforwarded => ?_⟩
    · cases hanswer.symm.trans hfile
    · cases hanswer.symm.trans hplugins
      rw [hrun, Option.bind_some, hresponse] at hnil
      exact hnil
    · cases hanswer.symm.trans hforwarded
  · intro h
    cases hplugins : s.plugins with
    | none => rfl
    | some plugins =>
      rw [Option.bind_some]
      cases hresponse : (plugins.run w chain request host target).response with
      | none => rfl
      | some response => exact h.plugins _ _ _ _ plugins response hanswer hplugins hresponse

/-- The upstream gives no chunk of a body that is forbidden. -/
theorem chunks_of_forbidden (hclient : v.BodylessAnswers) (hforbids : ForbidsBody s v) {request : OriginRequest}
    (hanswer : (proxyRequest s v).answer = .forwarded request) {head : ResponseHead} {chunks : List Bytes}
    (horigin : v.origin request = some (head, chunks)) : chunks = [] := by
  refine hclient request head chunks horigin ?_
  rcases hforbids with hhead | ⟨request', head', chunks', hforwarded, horigin', hstatus⟩
  · exact Or.inl ((method_of_forwarded hanswer).trans hhead)
  · cases hanswer.symm.trans hforwarded
    cases horigin.symm.trans horigin'
    exact Or.inr hstatus

theorem forwarded_bodyless_iff (hfinish : encoder.Finishes) (hclient : v.BodylessAnswers) (hforbids : ForbidsBody s v)
    {request : OriginRequest} (hanswer : (proxyRequest s v).answer = .forwarded request) :
    answerBody s cfg w encoder v (.forwarded request) = [] ↔ NothingToSend s cfg w v := by
  have hbody : answerBody s cfg w encoder v (.forwarded request) = ((v.origin request).map (fun a =>
    relayedBody encoder cfg v.req (s.proxy.upstreamRoute .http3 v.req) a.1 a.2)).getD [] := rfl
  have hrelayed : answerBody s cfg w encoder v (.forwarded request) = [] ↔ ∀ head chunks,
      v.origin request = some (head, chunks) →
        encoding cfg v.req (relayed (s.proxy.upstreamRoute .http3 v.req) head) = none := by
    rw [hbody]
    cases horigin : v.origin request with
    | none => exact iff_of_true rfl (fun _ _ h => by cases h)
    | some answered =>
      obtain ⟨head, chunks⟩ := answered
      obtain rfl := chunks_of_forbidden hclient hforbids hanswer horigin
      rw [Option.map_some, Option.getD_some, relayedBody_nil_iff hfinish]
      simp
  rw [hrelayed]
  constructor
  · intro h
    refine ⟨fun _ hfile => ?_, fun _ _ _ _ _ _ hplugins => ?_, fun _ head chunks hforwarded horigin => ?_⟩
    · cases hanswer.symm.trans hfile
    · cases hanswer.symm.trans hplugins
    · cases hanswer.symm.trans hforwarded
      exact h head chunks horigin
  · exact fun h head chunks horigin => h.relayed request head chunks hanswer horigin

end

/-- **A response without a body is sent without DATA bytes exactly when there is no file, no plugins' body and no coding
to end.** -/
theorem bodyless_iff {s : Server} {cfg : HeadSettings} {w : PluginWorld} {encoder : BodyEncoder} {v : Visit}
    (hfinish : encoder.Finishes) (hclient : v.BodylessAnswers) (hforbids : ForbidsBody s v) :
    bodySent s cfg w encoder v = [] ↔ NothingToSend s cfg w v := by
  unfold bodySent
  cases hanswer : (proxyRequest s v).answer with
  | file contents => exact file_bodyless_iff hanswer
  | plugins chain request host target => exact plugins_bodyless_iff hanswer
  | cached hit ifNoneMatch =>
    -- neither a HEAD nor a forwarded request is served from the cache
    exfalso
    rcases hforbids with hhead | ⟨request, -, -, hforwarded, -⟩
    · rw [method_of_cached hanswer] at hhead
      revert hhead
      decide
    · rw [hanswer] at hforwarded
      cases hforwarded
  | forwarded request => exact forwarded_bodyless_iff hfinish hclient hforbids hanswer
  | refused status => exact iff_of_true rfl (nothingToSend_of hanswer (by simp) (by simp) (by simp))
  | noTarget => exact iff_of_true rfl (nothingToSend_of hanswer (by simp) (by simp) (by simp))
  | failed => exact iff_of_true rfl (nothingToSend_of hanswer (by simp) (by simp) (by simp))
  | panicked panic => exact iff_of_true rfl (nothingToSend_of hanswer (by simp) (by simp) (by simp))

/-- The streams that gzip, zstd and Brotli make of an empty body. -/
def emptyStreams : BodyEncoder where
  State := Str
  new coding := coding
  push coding _ := ([], coding)
  finish coding :=
    if coding = "gzip".toList then [31, 139, 8, 0, 0, 0, 0, 0, 0, 255, 3, 0, 0, 0, 0, 0, 0, 0, 0, 0]
    else if coding = "zstd".toList then [40, 181, 47, 253, 32, 0, 1, 0, 0]
    else [59]

theorem emptyStreams_finishes : emptyStreams.Finishes := by
  intro coding
  show (if coding = "gzip".toList then _ else if coding = "zstd".toList then _ else _) ≠ []
  split
  · simp
  · split
    · simp
    · simp

/-- Heads are relayed without a body, compressed or not. -/
def relaying (compresses : Bool) : HeadSettings := ⟨[], none, compresses, fun _ _ => "text/html".toList⟩

/-- A HEAD from a client that accepts gzip, to an origin that answers it. -/
def headVisit : Visit :=
  { visitOf { getPage "a.test".toList with
      method := "HEAD".toList
      headers := (okHead [("accept-encoding", "gzip")]).headers } with
    origin := fun _ => some (okHead [("content-type", "text/html")], []) }

theorem headVisit_bodyless : headVisit.BodylessAnswers := by
  intro request head chunks h _
  cases h
  rfl

theorem head_uncompressed_bodyless :
    bodySent (runningServer oneUpstream.router) (relaying false) noPlugins emptyStreams headVisit = [] := by
  have hanswer : (proxyRequest (runningServer oneUpstream.router) headVisit).answer = .forwarded _ := rfl
  have hforbids : ForbidsBody (runningServer oneUpstream.router) headVisit := Or.inl rfl
  refine (bodyless_iff emptyStreams_finishes headVisit_bodyless hforbids).2 ⟨fun _ h => ?_, fun _ _ _ _ _ _ h => ?_, ?_⟩
  · cases hanswer.symm.trans h
  · cases hanswer.symm.trans h
  · intro _ _ _ _ _
    rfl

/-- **A HEAD is sent the end of a gzip stream, or the whole file.** -/
theorem head_sent_a_body :
    (ForbidsBody (runningServer oneUpstream.router) headVisit ∧
      bodySent (runningServer oneUpstream.router) (relaying true) noPlugins emptyStreams headVisit =
        [31, 139, 8, 0, 0, 0, 0, 0, 0, 255, 3, 0, 0, 0, 0, 0, 0, 0, 0, 0]) ∧
      ForbidsBody filesServer headVisit ∧
      bodySent filesServer (relaying true) noPlugins emptyStreams headVisit = [60, 112, 62] :=
  ⟨⟨Or.inl rfl, by decide⟩, Or.inl rfl, by decide⟩

end Http3
end Zaphyl
