import Zaphyl.AppSites
import Zaphyl.HeaderLines
import Zaphyl.PluginStage
/-!
# PluginChain — the run of a route's plugins

A plugin is two hooks, which may trap.  A chain hands the request from one request hook to the next, the global plugins'
before the route's, up to the first that responds; what all continue is sent behind the target's address, and the
response goes back through the response hooks in reverse (`run_in_order`).
-/
namespace Zaphyl

open Multimap (valuesAt)

structure PluginResponse where
  status : UInt16
  headers : List (Str × Str)
  body : Bytes
deriving DecidableEq

inductive PluginAction
  | continue (request : PluginRequest)
  | respond (response : PluginResponse)
deriving DecidableEq

/-- The hooks of a plugin; none where the plugin traps. -/
structure Plugin where
  handleRequest : PluginRequest → Option PluginAction
  handleResponse : PluginResponse → Option PluginResponse

inductive ChainOutcome
  | continue (request : PluginRequest)
  | respond (response : PluginResponse)
deriving DecidableEq

/-- A call of a hook of the plugin with this path. -/
inductive HookCall
  | request (path : Str) (request : PluginRequest)
  | response (path : Str) (response : PluginResponse)
deriving DecidableEq

/-- A request of the plugins' client, which goes to the host that its URI names. -/
structure FetchedRequest where
  method : Str
  uri : Str
  headers : HeaderMap
  body : Bytes
deriving DecidableEq

/-- What a run of a chain comes to: the hooks it called, the requests it sent, and the response, none where it fails. -/
structure ChainRun where
  calls : List HookCall
  sent : List FetchedRequest
  response : Option PluginResponse
deriving DecidableEq

/-- What plugin runs find outside: the components by path, whether a text is a URI, and the answers to requests. -/
structure PluginWorld where
  load : Str → Option Plugin
  validUri : Str → Bool
  answer : FetchedRequest → Option (ResponseHead × List Bytes)

namespace PluginChain

variable (w : PluginWorld)

def requestHook (path : Str) (request : PluginRequest) : Option PluginAction :=
  (w.load path).bind (fun plugin => plugin.handleRequest request)

def responseHook (path : Str) (response : PluginResponse) : Option PluginResponse :=
  (w.load path).bind (fun plugin => plugin.handleResponse response)

/-- `PluginChain::handle_request`, with the calls it makes. -/
def handleRequest : List Str → PluginRequest → List HookCall × Option ChainOutcome
  | [], request => ([], some (.continue request))
  | path :: rest, request =>
    match requestHook w path request with
    | none => ([.request path request], none)
    | some (.respond response) => ([.request path request], some (.respond response))
    | some (.continue modified) =>
      let more := handleRequest rest modified
      (.request path request :: more.1, more.2)

/-- The response hooks of the plugins in this order. -/
def answerWith : List Str → PluginResponse → List HookCall × Option PluginResponse
  | [], response => ([], some response)
  | path :: rest, response =>
    match responseHook w path response with
    | none => ([.response path response], none)
    | some modified =>
      let more := answerWith rest modified
      (.response path response :: more.1, more.2)

/-- `PluginChain::handle_response`. -/
def handleResponse (chain : List Str) (response : PluginResponse) : List HookCall × Option PluginResponse :=
  answerWith w chain.reverse response

end PluginChain

namespace Plugins

variable (w : PluginWorld)

def loadAll (paths : List Str) : Option (List Str) := paths.mapM (fun path => (w.load path).map (fun _ => path))

/-- The plugins of the configuration besides the routes': the global ones, and the cap on a body. -/
structure Settings where
  globalPaths : List Str
  maxBodyBytes : Nat
deriving DecidableEq

def globalOf (settings : Option Settings) : List Str := (settings.map Settings.globalPaths).getD []

/-- `Plugins::build`: none where a plugin does not load. -/
def build (settings : Option Settings) (config : Config) : Option (Option Plugins) :=
  let hasGlobal := settings.any (fun p => !p.globalPaths.isEmpty)
  let hasRoute := config.routes.any (fun r => !r.plugins.isEmpty)
  if !hasGlobal && !hasRoute then some none
  else do
    let loaded ← loadAll w (globalOf settings)
    let chains ← config.routes.mapM (fun route => do
      let own ← loadAll w route.plugins
      return loaded ++ own)
    return some ⟨chains, (settings.map Settings.maxBodyBytes).getD (1024 * 1024)⟩

/-- The request of `upstream::fetch`; the client's host stands for the request's own. -/
def fetchRequest (request : PluginRequest) (host : Str) (target : Target) : Option FetchedRequest :=
  let uri := originUri target request.path
  let headers := request.headers.filter (fun h => !Text.eqIgnoreAsciiCase h.1 HeaderName.host.text)
  let method := request.method
  if method ≠ [] ∧ method.all (fun c => isNameChar c || c.isUpper) = true ∧ w.validUri uri = true then
    (((HeaderName.host.text, host) :: headers).foldlM addHeader ⟨[]⟩).map (fun headers =>
      ⟨request.method, uri, headers, request.body⟩)
  else none

/-- The response of `upstream::fetch`; none over the cap. -/
def fetched (maxBody : Nat) (head : ResponseHead) (chunks : List Bytes) : Option PluginResponse :=
  if maxBody < chunks.flatten.length then none else some ⟨head.status, storedHeaders head.headers, chunks.flatten⟩

/-- `Plugins::run`. -/
def run (p : Plugins) (chain : List Str) (request : PluginRequest) (host : Str) (target : Target) : ChainRun :=
  let outcome := PluginChain.handleRequest w chain request
  match outcome.2 with
  | none => ⟨outcome.1, [], none⟩
  | some (.respond response) => ⟨outcome.1, [], some response⟩
  | some (.continue request) =>
    match fetchRequest w request host target with
    | none => ⟨outcome.1, [], none⟩
    | some sent =>
      match (w.answer sent).bind (fun a => fetched p.maxBody a.1 a.2) with
      | none => ⟨outcome.1, [sent], none⟩
      | some response =>
        let answered := PluginChain.handleResponse w chain response
        ⟨outcome.1 ++ answered.1, [sent], answered.2⟩

end Plugins

/-! ## Phases of a run -/

namespace PluginChain

variable (w : PluginWorld)

/-- Each hook continues, on the output of the one before it; `inputs` are what they are called with. -/
inductive Continues : List Str → PluginRequest → List PluginRequest → PluginRequest → Prop
  | nil {request} : Continues [] request [] request
  | cons {path rest request modified inputs final}
      (hhook : requestHook w path request = some (.continue modified))
      (hrest : Continues rest modified inputs final) : Continues (path :: rest) request (request :: inputs) final

/-- Each response hook answers, on the output of the one before it. -/
inductive Modifies : List Str → PluginResponse → List PluginResponse → PluginResponse → Prop
  | nil {response} : Modifies [] response [] response
  | cons {path rest response modified inputs final}
      (hhook : responseHook w path response = some modified)
      (hrest : Modifies rest modified inputs final) : Modifies (path :: rest) response (response :: inputs) final

def requestCalls (paths : List Str) (inputs : List PluginRequest) : List HookCall :=
  List.zipWith HookCall.request paths inputs

def responseCalls (paths : List Str) (inputs : List PluginResponse) : List HookCall :=
  List.zipWith HookCall.response paths inputs

variable {w}

theorem Continues.length_eq {paths : List Str} {request final : PluginRequest} {inputs : List PluginRequest}
    (h : Continues w paths request inputs final) : paths.length = inputs.length := by
  induction h with
  | nil => rfl
  | cons _ _ ih => rw [List.length_cons, List.length_cons, ih]

theorem Modifies.length_eq {paths : List Str} {response final : PluginResponse} {inputs : List PluginResponse}
    (h : Modifies w paths response inputs final) : paths.length = inputs.length := by
  induction h with
  | nil => rfl
  | cons _ _ ih => rw [List.length_cons, List.length_cons, ih]

/-- **Behind hooks that continue the chain goes on with their output.** -/
theorem handleRequest_append {pre : List Str} {request next : PluginRequest} {inputs : List PluginRequest}
    (h : Continues w pre request inputs next) (post : List Str) : handleRequest w (pre ++ post) request =
      (requestCalls pre inputs ++ (handleRequest w post next).1, (handleRequest w post next).2) := by
  induction h with
  | nil => rfl
  | cons hhook _ ih =>
    rw [List.cons_append, handleRequest, hhook]
    simp only [ih]
    rfl

theorem answerWith_append {pre : List Str} {response next : PluginResponse} {inputs : List PluginResponse}
    (h : Modifies w pre response inputs next) (post : List Str) : answerWith w (pre ++ post) response =
      (responseCalls pre inputs ++ (answerWith w post next).1, (answerWith w post next).2) := by
  induction h with
  | nil => rfl
  | cons hhook _ ih =>
    rw [List.cons_append, answerWith, hhook]
    simp only [ih]
    rfl

theorem requestCalls_concat {pre : List Str} {inputs : List PluginRequest} (h : pre.length = inputs.length) (path : Str)
    (request : PluginRequest) : requestCalls (pre ++ [path]) (inputs ++ [request]) =
      requestCalls pre inputs ++ [.request path request] := by
  unfold requestCalls
  rw [List.zipWith_append h]
  rfl

theorem responseCalls_concat {pre : List Str} {inputs : List PluginResponse} (h : pre.length = inputs.length)
    (path : Str) (response : PluginResponse) : responseCalls (pre ++ [path]) (inputs ++ [response]) =
      responseCalls pre inputs ++ [.response path response] := by
  unfold responseCalls
  rw [List.zipWith_append h]
  rfl

theorem handleRequest_of_continues {chain : List Str} {request final : PluginRequest} {inputs : List PluginRequest}
    (h : Continues w chain request inputs final) :
    handleRequest w chain request = (requestCalls chain inputs, some (.continue final)) := by
  have happend := handleRequest_append h []
  rwa [List.append_nil, handleRequest, List.append_nil] at happend

/-- A chain that comes to its end has continued throughout. -/
theorem continues_of_handleRequest {chain : List Str} {request final : PluginRequest}
    (h : (handleRequest w chain request).2 = some (.continue final)) :
    ∃ inputs, Continues w chain request inputs final := by
  induction chain generalizing request with
  | nil =>
    have hsame : request = final := by
      rw [handleRequest] at h
      cases h
      rfl
    exact ⟨[], hsame ▸ .nil⟩
  | cons path rest ih =>
    rw [handleRequest] at h
    split at h
    · cases h
    · cases h
    · rename_i modified hhook
      obtain ⟨inputs, hrest⟩ := ih h
      exact ⟨request :: inputs, .cons hhook hrest⟩

end PluginChain

/-! ## What is sent -/

/-- The request that plugins leave can be sent: its method is a token, its path makes a URI behind the target's address,
and its headers and the client's host are valid. -/
structure PluginRequest.Buildable (w : PluginWorld) (host : Str) (target : Target) (request : PluginRequest) :
    Prop where
  method : request.method ≠ [] ∧ ∀ c ∈ request.method, isNameChar c = true ∨ c.isUpper = true
  uri : w.validUri (originUri target request.path) = true
  host : HeaderValue.ofStr host ≠ none
  headers : ∀ h ∈ request.headers, HeaderName.parse h.1 ≠ some HeaderName.host →
    HeaderName.parse h.1 ≠ none ∧ HeaderValue.ofStr h.2 ≠ none

/-- The path stays behind the address that it is put to: it is empty, or begins with what ends an authority. -/
def StaysBehind (path : Str) : Prop := ∀ c ∈ path.head?, endsAuthority c = true

theorem staysBehind_iff (path : Str) : path.head?.all endsAuthority = true ↔ StaysBehind path := Option.all_eq_true ..

instance (path : Str) : Decidable (StaysBehind path) := decidable_of_iff _ (staysBehind_iff path)

namespace FetchedRequest

/-- The request goes to the target: the URI names the target's authority. -/
def GoesTo (sent : FetchedRequest) (target : Target) : Prop :=
  uriAuthority sent.uri = uriAuthority (originUri target [])

/-- What is sent is the request that plugins leave, behind the target's address and under the client's host. -/
structure Carries (sent : FetchedRequest) (request : PluginRequest) (host : Str) (target : Target) : Prop where
  method : sent.method = request.method
  uri : sent.uri = originUri target request.path
  host : (sent.headers.values HeaderName.host).map some = [HeaderValue.ofStr host]
  headers : ∀ n, n ≠ HeaderName.host → sent.headers.values n = valuesAt n (request.headers.filterMap validLine)
  body : sent.body = request.body

/-- The upstream's response to the request, with a body within the cap. -/
def Answered (w : PluginWorld) (maxBody : Nat) (sent : FetchedRequest) (response : PluginResponse) : Prop :=
  ∃ head chunks, w.answer sent = some (head, chunks) ∧ chunks.flatten.length ≤ maxBody ∧
    response = ⟨head.status, storedHeaders head.headers, chunks.flatten⟩

end FetchedRequest

theorem uriAuthority_of_staysBehind {path : Str} (h : StaysBehind path) (target : Target) :
    uriAuthority (originUri target path) = uriAuthority (originUri target []) := by
  have hnone : path.takeWhile (fun c => !endsAuthority c) = [] := by
    cases path with
    | nil => rfl
    | cons c path => exact List.takeWhile_cons_of_neg (by simp [h c rfl])
  unfold uriAuthority
  rw [withoutScheme_originUri, withoutScheme_originUri, List.append_nil, List.takeWhile_append, hnone, List.append_nil]
  split
  · rename_i hlength
    exact ((List.takeWhile_prefix _).eq_of_length hlength).symm
  · rfl

/-- **What is sent goes to the target when its path stays behind the address.** -/
theorem FetchedRequest.Carries.goesTo {sent : FetchedRequest} {request : PluginRequest} {host : Str} {target : Target}
    (h : sent.Carries request host target) (hpath : StaysBehind request.path) : sent.GoesTo target := by
  unfold FetchedRequest.GoesTo
  rw [h.uri]
  exact uriAuthority_of_staysBehind hpath target

theorem eqIgnoreAsciiCase_host_iff (name : Str) :
    Text.eqIgnoreAsciiCase name HeaderName.host.text = true ↔ HeaderName.parse name = some HeaderName.host := by
  rw [Text.eqIgnoreAsciiCase_iff, asciiLower_text, parse_eq_some_iff]

theorem validLine_ne_none_iff (h : Str × Str) :
    validLine h ≠ none ↔ HeaderName.parse h.1 ≠ none ∧ HeaderValue.ofStr h.2 ≠ none := by
  unfold validLine
  cases HeaderName.parse h.1 with
  | none => simp
  | some n => cases HeaderValue.ofStr h.2 <;> simp

/-- Lines of another name stand in what is left without the lines of `Host`. -/
theorem valuesAt_without_host {n : HeaderName} (hn : n ≠ HeaderName.host) (headers : List (Str × Str)) :
    valuesAt n ((headers.filter (fun h => !Text.eqIgnoreAsciiCase h.1 HeaderName.host.text)).filterMap validLine) =
      valuesAt n (headers.filterMap validLine) := by
  induction headers with
  | nil => rfl
  | cons h headers ih =>
    by_cases hhost : Text.eqIgnoreAsciiCase h.1 HeaderName.host.text = true
    · rw [List.filter_cons_of_neg (by simp [hhost]), ih]
      cases hline : validLine h with
      | none => rw [List.filterMap_cons_none hline]
      | some l =>
        have hname := (validLine_eq_some_iff.1 hline).1
        rw [(eqIgnoreAsciiCase_host_iff h.1).1 hhost, Option.some.injEq] at hname
        rw [List.filterMap_cons_some hline, Multimap.valuesAt_cons_ne (hname ▸ Ne.symm hn)]
    · rw [List.filter_cons_of_pos (by simp [hhost])]
      cases hline : validLine h with
      | none => rw [List.filterMap_cons_none hline, List.filterMap_cons_none hline, ih]
      | some l =>
        rw [List.filterMap_cons_some hline, List.filterMap_cons_some hline]
        by_cases hkey : l.1 = n
        · rw [Multimap.valuesAt_cons_self hkey, Multimap.valuesAt_cons_self hkey, ih]
        · rw [Multimap.valuesAt_cons_ne hkey, Multimap.valuesAt_cons_ne hkey, ih]

namespace Plugins

variable {w : PluginWorld} {request : PluginRequest} {host : Str} {target : Target}

theorem fetchRequest_eq_some_iff {sent : FetchedRequest} : fetchRequest w request host target = some sent ↔
    request.Buildable w host target ∧
      sent = ⟨request.method, originUri target request.path, ⟨Multimap.addAll (((HeaderName.host.text, host) ::
        request.headers.filter (fun h => !Text.eqIgnoreAsciiCase h.1 HeaderName.host.text)).filterMap validLine) []⟩,
        request.body⟩ := by
  have hhost : validLine (HeaderName.host.text, host) ≠ none ↔ HeaderValue.ofStr host ≠ none := by
    have hname : HeaderName.parse HeaderName.host.text ≠ none := by decide
    rw [validLine_ne_none_iff, and_iff_right hname]
  have hlines : (∀ h ∈ (HeaderName.host.text, host) :: request.headers.filter
        (fun h => !Text.eqIgnoreAsciiCase h.1 HeaderName.host.text), validLine h ≠ none) ↔
      HeaderValue.ofStr host ≠ none ∧ ∀ h ∈ request.headers, HeaderName.parse h.1 ≠ some HeaderName.host →
        HeaderName.parse h.1 ≠ none ∧ HeaderValue.ofStr h.2 ≠ none := by
    rw [List.forall_mem_cons, hhost]
    refine and_congr_right (fun _ => ?_)
    simp only [List.mem_filter, Bool.not_eq_true', Bool.eq_false_iff, and_imp, Ne, eqIgnoreAsciiCase_host_iff,
      validLine_ne_none_iff]
  have hmethod : request.method.all (fun c => isNameChar c || c.isUpper) = true ↔
      ∀ c ∈ request.method, isNameChar c = true ∨ c.isUpper = true := by
    simp only [List.all_eq_true, Bool.or_eq_true]
  unfold fetchRequest
  simp only [hmethod]
  constructor
  · intro h
    split at h
    · rename_i hrequest
      obtain ⟨headers, hheaders, rfl⟩ := Option.map_eq_some_iff.1 h
      obtain ⟨hvalid, rfl⟩ := foldlM_addHeader_eq_some_iff.1 hheaders
      obtain ⟨hh, hheaders⟩ := hlines.1 hvalid
      exact ⟨⟨⟨hrequest.1, hrequest.2.1⟩, hrequest.2.2, hh, hheaders⟩, rfl⟩
    · cases h
  · rintro ⟨hbuild, rfl⟩
    rw [if_pos ⟨hbuild.method.1, hbuild.method.2, hbuild.uri⟩,
      foldlM_addHeader_eq_some_iff.2 ⟨hlines.2 ⟨hbuild.host, hbuild.headers⟩, rfl⟩, Option.map_some]

/-- **What is sent carries the request that plugins leave.** -/
theorem carries_of_fetchRequest {sent : FetchedRequest} (h : fetchRequest w request host target = some sent) :
    sent.Carries request host target := by
  obtain ⟨hbuild, rfl⟩ := fetchRequest_eq_some_iff.1 h
  obtain ⟨value, hvalue⟩ := Option.ne_none_iff_exists'.1 hbuild.host
  have hname : HeaderName.parse HeaderName.host.text = some HeaderName.host := by decide
  have hline : validLine (HeaderName.host.text, host) = some (HeaderName.host, value) :=
    validLine_eq_some_iff.2 ⟨hname, hvalue⟩
  have hvalues : ∀ n, HeaderMap.values ⟨Multimap.addAll (((HeaderName.host.text, host) ::
        request.headers.filter (fun h => !Text.eqIgnoreAsciiCase h.1 HeaderName.host.text)).filterMap validLine) []⟩ n =
      valuesAt n ((HeaderName.host, value) :: (request.headers.filter
        (fun h => !Text.eqIgnoreAsciiCase h.1 HeaderName.host.text)).filterMap validLine) := by
    intro n
    rw [List.filterMap_cons_some hline]
    exact Multimap.valuesAt_addAll_of_grouped n _ Multimap.grouped_nil
  refine ⟨rfl, rfl, ?_, fun n hn => ?_, rfl⟩
  · have hnone : valuesAt HeaderName.host ((request.headers.filter
        (fun h => !Text.eqIgnoreAsciiCase h.1 HeaderName.host.text)).filterMap validLine) = [] := by
      rw [Multimap.valuesAt_eq_nil_iff]
      intro l hl hname
      obtain ⟨x, hx, hxline⟩ := List.mem_filterMap.1 hl
      have hparsed := (validLine_eq_some_iff.1 hxline).1
      rw [hname, ← eqIgnoreAsciiCase_host_iff] at hparsed
      simpa [hparsed] using (List.mem_filter.1 hx).2
    rw [hvalues, Multimap.valuesAt_cons_pair, hnone, hvalue]
    rfl
  · rw [hvalues, Multimap.valuesAt_cons_ne (Ne.symm hn), valuesAt_without_host hn]

/-- **A request is built exactly when it can be**, and carries what plugins leave. -/
theorem exists_fetchRequest (h : request.Buildable w host target) :
    ∃ sent, fetchRequest w request host target = some sent ∧ sent.Carries request host target :=
  have hsent := fetchRequest_eq_some_iff.2 ⟨h, rfl⟩
  ⟨_, hsent, carries_of_fetchRequest hsent⟩

theorem fetchRequest_eq_none_iff : fetchRequest w request host target = none ↔ ¬ request.Buildable w host target := by
  rw [Option.eq_none_iff_forall_ne_some]
  constructor
  · intro h hbuild
    obtain ⟨sent, hsent, -⟩ := exists_fetchRequest hbuild
    exact h sent hsent
  · exact fun h sent hsent => h (fetchRequest_eq_some_iff.1 hsent).1

theorem fetched_eq_some_iff {maxBody : Nat} {sent : FetchedRequest} {response : PluginResponse} :
    (w.answer sent).bind (fun a => fetched maxBody a.1 a.2) = some response ↔ sent.Answered w maxBody response := by
  unfold FetchedRequest.Answered
  constructor
  · intro h
    obtain ⟨⟨head, chunks⟩, hanswer, hfetched⟩ := Option.bind_eq_some_iff.1 h
    unfold fetched at hfetched
    split at hfetched
    · cases hfetched
    · rename_i hfits
      exact ⟨head, chunks, hanswer, Nat.le_of_not_lt hfits, (Option.some.inj hfetched).symm⟩
  · rintro ⟨head, chunks, hanswer, hfits, rfl⟩
    rw [hanswer, Option.bind_some, fetched, if_neg (Nat.not_lt.2 hfits)]

theorem fetched_eq_none_iff {maxBody : Nat} {sent : FetchedRequest} :
    (w.answer sent).bind (fun a => fetched maxBody a.1 a.2) = none ↔ ∀ response, ¬ sent.Answered w maxBody response := by
  rw [Option.eq_none_iff_forall_ne_some]
  exact forall_congr' (fun response => not_congr fetched_eq_some_iff)

end Plugins

/-! ## Runs -/

open PluginChain (Continues Modifies requestHook responseHook requestCalls responseCalls)

/-- **What becomes of a request that is sent**, behind request hooks that were called with `inputs`. -/
structure AnsweredInOrder (w : PluginWorld) (p : Plugins) (chain : List Str) (inputs : List PluginRequest)
    (sent : FetchedRequest) (run : ChainRun) : Prop where
  unanswered : (∀ response, ¬ sent.Answered w p.maxBody response) → run = ⟨requestCalls chain inputs, [sent], none⟩
  /-- The response goes through the response hooks in reverse. -/
  answers : ∀ {response outputs result}, sent.Answered w p.maxBody response →
    Modifies w chain.reverse response outputs result →
      run = ⟨requestCalls chain inputs ++ responseCalls chain.reverse outputs, [sent], some result⟩
  responseFails : ∀ {response pre path post outputs r}, sent.Answered w p.maxBody response →
    chain.reverse = pre ++ path :: post → Modifies w pre response outputs r → responseHook w path r = none →
      run = ⟨requestCalls chain inputs ++ responseCalls (pre ++ [path]) (outputs ++ [r]), [sent], none⟩

/-- **What a run of a chain does**: where a hook responds or fails, where all continue, and what becomes of the
response. -/
structure RunsInOrder (w : PluginWorld) (p : Plugins) (chain : List Str) (request : PluginRequest) (host : Str)
    (target : Target) : Prop where
  /-- The first plugin that responds ends the run. -/
  responds : ∀ {pre path post inputs r response}, chain = pre ++ path :: post → Continues w pre request inputs r →
    requestHook w path r = some (.respond response) →
      p.run w chain request host target = ⟨requestCalls (pre ++ [path]) (inputs ++ [r]), [], some response⟩
  requestFails : ∀ {pre path post inputs r}, chain = pre ++ path :: post → Continues w pre request inputs r →
    requestHook w path r = none →
      p.run w chain request host target = ⟨requestCalls (pre ++ [path]) (inputs ++ [r]), [], none⟩
  /-- Something is sent exactly when all continue and leave a request that can be sent. -/
  contacts : (p.run w chain request host target).sent ≠ [] ↔
    ∃ inputs final, Continues w chain request inputs final ∧ final.Buildable w host target
  unbuilt : ∀ {inputs final}, Continues w chain request inputs final → ¬ final.Buildable w host target →
    p.run w chain request host target = ⟨requestCalls chain inputs, [], none⟩
  /-- What is sent then is the request they leave, and to the target if its path stays behind the address. -/
  sends : ∀ {inputs final}, Continues w chain request inputs final → final.Buildable w host target →
    ∃ sent : FetchedRequest, (p.run w chain request host target).sent = [sent] ∧ sent.Carries final host target ∧
      (StaysBehind final.path → sent.GoesTo target) ∧
      AnsweredInOrder w p chain inputs sent (p.run w chain request host target)

namespace Plugins

variable {w : PluginWorld} (p : Plugins) {chain : List Str} {request : PluginRequest} {host : Str} {target : Target}

theorem run_of_responds {pre post : List Str} {path : Str} {inputs : List PluginRequest} {r : PluginRequest}
    {response : PluginResponse} (hpre : Continues w pre request inputs r)
    (hhook : requestHook w path r = some (.respond response)) :
    p.run w (pre ++ path :: post) request host target =
      ⟨requestCalls (pre ++ [path]) (inputs ++ [r]), [], some response⟩ := by
  unfold run
  rw [PluginChain.handleRequest_append hpre, PluginChain.handleRequest, hhook,
    PluginChain.requestCalls_concat hpre.length_eq]

theorem run_of_requestFails {pre post : List Str} {path : Str} {inputs : List PluginRequest} {r : PluginRequest}
    (hpre : Continues w pre request inputs r) (hhook : requestHook w path r = none) :
    p.run w (pre ++ path :: post) request host target =
      ⟨requestCalls (pre ++ [path]) (inputs ++ [r]), [], none⟩ := by
  unfold run
  rw [PluginChain.handleRequest_append hpre, PluginChain.handleRequest, hhook,
    PluginChain.requestCalls_concat hpre.length_eq]

/-- The run of a chain whose request hooks all continue. -/
theorem run_of_continues {inputs : List PluginRequest} {final : PluginRequest}
    (h : Continues w chain request inputs final) : p.run w chain request host target =
      match fetchRequest w final host target with
      | none => ⟨requestCalls chain inputs, [], none⟩
      | some sent =>
        match (w.answer sent).bind (fun a => fetched p.maxBody a.1 a.2) with
        | none => ⟨requestCalls chain inputs, [sent], none⟩
        | some response =>
          ⟨requestCalls chain inputs ++ (PluginChain.handleResponse w chain response).1, [sent],
            (PluginChain.handleResponse w chain response).2⟩ := by
  unfold run
  rw [PluginChain.handleRequest_of_continues h]

theorem sent_of_continues {inputs : List PluginRequest} {final : PluginRequest} {sent : FetchedRequest}
    (h : Continues w chain request inputs final) (hsent : fetchRequest w final host target = some sent) :
    (p.run w chain request host target).sent = [sent] := by
  rw [p.run_of_continues h, hsent]
  simp only
  split <;> rfl

/-- A run that sends something has continued throughout, and leaves a request that can be sent. -/
theorem sent_ne_nil_iff : (p.run w chain request host target).sent ≠ [] ↔
    ∃ inputs final, Continues w chain request inputs final ∧ final.Buildable w host target := by
  constructor
  · intro hne
    cases houtcome : (PluginChain.handleRequest w chain request).2 with
    | none =>
      refine absurd ?_ hne
      rw [run]
      simp only [houtcome]
    | some outcome =>
      cases outcome with
      | respond response =>
        refine absurd ?_ hne
        rw [run]
        simp only [houtcome]
      | «continue» final =>
        obtain ⟨inputs, hcontinues⟩ := PluginChain.continues_of_handleRequest houtcome
        refine ⟨inputs, final, hcontinues, Classical.byContradiction (fun hbuild => hne ?_)⟩
        rw [p.run_of_continues hcontinues, fetchRequest_eq_none_iff.2 hbuild]
  · rintro ⟨inputs, final, hcontinues, hbuild⟩
    obtain ⟨sent, hsent, -⟩ := exists_fetchRequest hbuild
    rw [p.sent_of_continues hcontinues hsent]
    exact List.cons_ne_nil _ _

theorem answered_in_order {inputs : List PluginRequest} {final : PluginRequest} {sent : FetchedRequest}
    (h : Continues w chain request inputs final) (hsent : fetchRequest w final host target = some sent) :
    AnsweredInOrder w p chain inputs sent (p.run w chain request host target) where
  unanswered := by
    intro hanswer
    rw [p.run_of_continues h, hsent]
    simp only [fetched_eq_none_iff.2 hanswer]
  answers := by
    intro response outputs result hanswer hmodifies
    have hall := PluginChain.answerWith_append hmodifies []
    rw [List.append_nil, PluginChain.answerWith, List.append_nil] at hall
    rw [p.run_of_continues h, hsent]
    simp only [fetched_eq_some_iff.2 hanswer, PluginChain.handleResponse, hall]
  responseFails := by
    intro response pre path post outputs r hanswer hchain hpre hhook
    have hall := PluginChain.answerWith_append hpre (path :: post)
    rw [PluginChain.answerWith, hhook, ← PluginChain.responseCalls_concat hpre.length_eq, ← hchain] at hall
    rw [p.run_of_continues h, hsent]
    simp only [fetched_eq_some_iff.2 hanswer, PluginChain.handleResponse, hall]

/-- **A run calls the hooks in the order of its chain**, and sends at most the request they leave. -/
theorem run_in_order (w : PluginWorld) (p : Plugins) (chain : List Str) (request : PluginRequest) (host : Str)
    (target : Target) : RunsInOrder w p chain request host target where
  responds := by
    rintro pre path post inputs r response rfl hpre hhook
    exact p.run_of_responds hpre hhook
  requestFails := by
    rintro pre path post inputs r rfl hpre hhook
    exact p.run_of_requestFails hpre hhook
  contacts := p.sent_ne_nil_iff
  unbuilt := by
    intro inputs final hcontinues hbuild
    rw [p.run_of_continues hcontinues, fetchRequest_eq_none_iff.2 hbuild]
  sends := by
    intro inputs final hcontinues hbuild
    obtain ⟨sent, hsent, hcarries⟩ := exists_fetchRequest hbuild
    exact ⟨sent, p.sent_of_continues hcontinues hsent, hcarries, hcarries.goesTo, p.answered_in_order hcontinues hsent⟩

end Plugins
end Zaphyl
