import Zaphyl.Checks
import Zaphyl.StoragePolicy
/-!
# CachedBody — the stored body is the whole body, or none is stored

The body filter of HTTP/1 and HTTP/2 and the relay of HTTP/3 gather a response's chunks up to a limit and store them at
the end.  Both store what `accumulate` makes of the chunks, so that a response is stored exactly when its body fits,
unless its lifetime ends after the clock does (`stored_whole_iff`).
-/
namespace Zaphyl

/-- The key under which a response is stored, for how long, its status and its headers. -/
structure AcceptedResponse where
  key : Str
  ttl : Duration
  status : UInt16
  headers : List (Str × Str)
  deriving DecidableEq

/-! ## HTTP/1 and HTTP/2 -/

/-- What a request's context keeps to store its response. -/
structure CaptureCtx where
  cacheKey : Option Str
  cacheTtl : Option Duration
  cacheStatus : UInt16
  cacheHeaders : List (Str × Str)
  cacheBody : Bytes
  cacheOverflow : Bool

/-- The context of a response that is accepted, before its body. -/
def AcceptedResponse.ctx (r : AcceptedResponse) : CaptureCtx := ⟨some r.key, some r.ttl, r.status, r.headers, [], false⟩

/-- The context of a request under a key, before its response. -/
def CaptureCtx.new (cacheKey : Option Str) : CaptureCtx := ⟨cacheKey, none, 0, [], [], false⟩

@[simp] theorem AcceptedResponse.ctx_cacheKey (r : AcceptedResponse) : r.ctx.cacheKey = some r.key := rfl

@[simp] theorem CaptureCtx.new_cacheKey (key : Option Str) : (CaptureCtx.new key).cacheKey = key := rfl

/-- `upstream_response_filter`: whether the response may be stored, and its metadata. -/
def upstreamResponseFilter (hasCache : Bool) (ctx : CaptureCtx) (head : ResponseHead) : CaptureCtx :=
  if hasCache && ctx.cacheKey.isSome then
    match upstreamTtl head with
    | some ttl =>
      { ctx with cacheTtl := some ttl, cacheStatus := head.status, cacheHeaders := storedHeaders head.headers }
    | none => { ctx with cacheKey := none }
  else ctx

/-- What the context says of the response once its heads are read: it is accepted while the key and a lifetime stand. -/
def CaptureCtx.accepted (ctx : CaptureCtx) : Option AcceptedResponse :=
  ctx.cacheKey.bind (fun key => ctx.cacheTtl.map (fun ttl => ⟨key, ttl, ctx.cacheStatus, ctx.cacheHeaders⟩))

/-- A call of the body filter: a chunk if there is one, whether the body ends, and the clock. -/
structure BodyCall where
  body : Option Bytes
  endOfStream : Bool
  now : SystemTime

/-- The bytes a call brings. -/
def BodyCall.bytes (call : BodyCall) : Bytes := call.body.getD []

/-- The context with a chunk: one that makes the body too large drops it. -/
def CaptureCtx.extend (maxBody : Nat) (ctx : CaptureCtx) : Option Bytes → CaptureCtx
  | some chunk =>
    if ctx.cacheBody.length + chunk.length > maxBody then { ctx with cacheOverflow := true, cacheBody := [] }
    else { ctx with cacheBody := ctx.cacheBody ++ chunk }
  | none => ctx

/-- `upstream_response_body_filter`: the context afterwards, and what is put. -/
def upstreamResponseBodyFilter (hasCache : Bool) (maxBody : Nat) (ctx : CaptureCtx) (call : BodyCall) :
    Except Panic (CaptureCtx × Option Store) :=
  match hasCache, ctx.cacheTtl with
  | true, some ttl =>
    if ctx.cacheOverflow then .ok (ctx, none)
    else
      let ctx := ctx.extend maxBody call.body
      match call.endOfStream && !ctx.cacheOverflow, ctx.cacheKey with
      | true, some key => do
        let expiry ← call.now.add ttl
        return ({ ctx with cacheKey := none, cacheHeaders := [], cacheBody := [] },
          some ⟨key, expiry, ⟨ctx.cacheStatus, ctx.cacheHeaders, ctx.cacheBody⟩⟩)
      | _, _ => .ok (ctx, none)
  | _, _ => .ok (ctx, none)

/-- What the calls of the filter put; a panic ends the request. -/
def filterBody (hasCache : Bool) (maxBody : Nat) : CaptureCtx → List BodyCall → List Store
  | _, [] => []
  | ctx, call :: calls =>
    match upstreamResponseBodyFilter hasCache maxBody ctx call with
    | .ok (ctx, stored) => stored.toList ++ filterBody hasCache maxBody ctx calls
    | .error _ => []

/-! ## HTTP/3 -/

/-- A frame of an upstream's body: data, with whether the client was sent it, trailers, or an error. -/
inductive UpstreamFrame
  | data (bytes : Bytes) (sent : Bool)
  | trailers
  | failed

namespace UpstreamFrame

def bytes : UpstreamFrame → Bytes
  | data bytes _ => bytes
  | trailers => []
  | failed => []

/-- The relay goes on behind the frame. -/
def relayed : UpstreamFrame → Bool
  | data _ sent => sent
  | trailers => true
  | failed => false

end UpstreamFrame

namespace Http3

/-- The buffer, and whether it overflowed. -/
def accumulateCacheBody (active : Bool) (buf : Bytes × Bool) (data : Bytes) (max : Nat) : Bytes × Bool :=
  if active && !buf.2 then
    if buf.1.length + data.length > max then ([], true) else (buf.1 ++ data, false)
  else buf

/-- The buffer once all frames are relayed; none when an error ends the request. -/
def relayFrames (active : Bool) (max : Nat) : Bytes × Bool → List UpstreamFrame → Option (Bytes × Bool)
  | buf, [] => some buf
  | buf, .data bytes sent :: frames =>
    let buf := accumulateCacheBody active buf bytes max
    if sent then relayFrames active max buf frames else none
  | buf, .trailers :: frames => relayFrames active max buf frames
  | _, .failed :: _ => none

/-- What is put once the body is relayed; `finished` is whether the client's stream was finished. -/
def relayAndStore (hasCache : Bool) (maxBody : Nat) (cacheStore : Option AcceptedResponse) (frames : List UpstreamFrame)
    (finished : Bool) (now : SystemTime) : Except Panic (Option Store) :=
  match relayFrames cacheStore.isSome maxBody ([], false) frames with
  | none => .ok none
  | some (cacheBuf, cacheOverflow) =>
    match finished && hasCache && !cacheOverflow, cacheStore with
    | true, some r => do
      let expiry ← now.add r.ttl
      return some ⟨r.key, expiry, ⟨r.status, r.headers, cacheBuf⟩⟩
    | _, _ => .ok none

end Http3

/-! ## The heads of a response -/

/-- No head brings a dropped key back. -/
theorem foldl_upstreamResponseFilter_no_key {ctx : CaptureCtx} (h : ctx.cacheKey = none) (heads : List ResponseHead) :
    heads.foldl (upstreamResponseFilter true) ctx = ctx := by
  have hstep : ∀ head, upstreamResponseFilter true ctx head = ctx := fun head => by simp [upstreamResponseFilter, h]
  induction heads with
  | nil => rfl
  | cons head heads ih => rw [List.foldl_cons, hstep, ih]

/-- A head with a lifetime is accepted under the key, any other drops it. -/
theorem upstreamResponseFilter_key {ctx : CaptureCtx} {key : Str} (h : ctx.cacheKey = some key) (head : ResponseHead) :
    upstreamResponseFilter true ctx head =
      match upstreamTtl head with
      | some ttl =>
        { ctx with cacheTtl := some ttl, cacheStatus := head.status, cacheHeaders := storedHeaders head.headers }
      | none => { ctx with cacheKey := none } := by
  simp [upstreamResponseFilter, h]

/-- **What the heads of a response leave**: no key, the new context, or that of an accepted response. -/
theorem foldl_upstreamResponseFilter_cases (key : Str) (heads : List ResponseHead) {ctx : CaptureCtx}
    (h : ctx.cacheKey = none ∨ ctx = CaptureCtx.new (some key) ∨ ∃ r : AcceptedResponse, ctx = r.ctx) :
    (heads.foldl (upstreamResponseFilter true) ctx).cacheKey = none ∨
      heads.foldl (upstreamResponseFilter true) ctx = CaptureCtx.new (some key) ∨
      ∃ r : AcceptedResponse, heads.foldl (upstreamResponseFilter true) ctx = r.ctx := by
  induction heads generalizing ctx with
  | nil => exact h
  | cons head heads ih =>
    rw [List.foldl_cons]
    rcases h with hnone | rfl | ⟨r, rfl⟩
    · refine ih (.inl ?_)
      rw [← hnone]
      exact congrArg CaptureCtx.cacheKey (foldl_upstreamResponseFilter_no_key hnone [head])
    · rw [upstreamResponseFilter_key (CaptureCtx.new_cacheKey (some key))]
      cases upstreamTtl head with
      | none => exact ih (.inl rfl)
      | some ttl => exact ih (.inr (.inr ⟨⟨key, ttl, head.status, storedHeaders head.headers⟩, rfl⟩))
    · rw [upstreamResponseFilter_key r.ctx_cacheKey]
      cases upstreamTtl head with
      | none => exact ih (.inl rfl)
      | some ttl => exact ih (.inr (.inr ⟨⟨r.key, ttl, head.status, storedHeaders head.headers⟩, rfl⟩))

/-! ## The chunks of a body -/

/-- **A body within the limit is gathered whole, a larger one not at all.** -/
theorem accumulate_eq {max : Nat} {body : Bytes} (chunks : List Bytes) (h : body.length ≤ max) :
    accumulate max body chunks =
      if (body ++ chunks.flatten).length ≤ max then some (body ++ chunks.flatten) else none := by
  induction chunks generalizing body with
  | nil =>
    rw [List.flatten_nil, List.append_nil, if_pos h]
    rfl
  | cons chunk chunks ih =>
    have hlen : (body ++ (chunk :: chunks).flatten).length
        = body.length + chunk.length + chunks.flatten.length := by
      rw [List.flatten_cons, List.length_append, List.length_append, Nat.add_assoc]
    unfold accumulate
    by_cases hover : body.length + chunk.length > max
    · rw [if_pos hover, if_neg (by omega)]
    · have hfit : (body ++ chunk).length ≤ max := by
        rw [List.length_append]
        omega
      rw [if_neg hover, ih hfit, List.append_assoc, ← List.flatten_cons]

/-- What is put of the chunks: their body, when it fits and its lifetime ends in time. -/
def AcceptedResponse.stored (r : AcceptedResponse) (maxBody : Nat) (now : SystemTime) (body : Bytes)
    (chunks : List Bytes) : Option Store :=
  (accumulate maxBody body chunks).bind (fun body =>
    ProxyConfig.storeUntil r.key now r.ttl ⟨r.status, r.headers, body⟩)

/-! ## The body filter -/

/-- The context when `body` has been gathered. -/
def AcceptedResponse.gathered (r : AcceptedResponse) (body : Bytes) : CaptureCtx := { r.ctx with cacheBody := body }

/-- The context once the body has become too large. -/
def AcceptedResponse.overflowed (r : AcceptedResponse) : CaptureCtx := { r.ctx with cacheOverflow := true }

theorem extend_gathered {r : AcceptedResponse} {maxBody : Nat} {body : Bytes} (h : body.length ≤ maxBody)
    (call : BodyCall) :
    (r.gathered body).extend maxBody call.body =
      if body.length + call.bytes.length > maxBody then r.overflowed else r.gathered (body ++ call.bytes) := by
  obtain ⟨chunk, flag, now⟩ := call
  cases chunk with
  | none =>
    have hlen : ¬ body.length + (BodyCall.bytes ⟨none, flag, now⟩).length > maxBody := by
      show ¬ body.length + 0 > maxBody
      omega
    rw [if_neg hlen]
    show r.gathered body = r.gathered (body ++ [])
    rw [List.append_nil]
  | some chunk => rfl

theorem filter_open {r : AcceptedResponse} {maxBody : Nat} {body : Bytes} (h : body.length ≤ maxBody)
    {call : BodyCall} (hopen : call.endOfStream = false) :
    upstreamResponseBodyFilter true maxBody (r.gathered body) call =
      .ok (if body.length + call.bytes.length > maxBody then r.overflowed else r.gathered (body ++ call.bytes),
        none) := by
  rw [← extend_gathered h]
  unfold upstreamResponseBodyFilter
  simp [AcceptedResponse.gathered, AcceptedResponse.ctx, hopen]

theorem filter_last {r : AcceptedResponse} {maxBody : Nat} {body : Bytes} (h : body.length ≤ maxBody)
    {call : BodyCall} (hend : call.endOfStream = true) :
    upstreamResponseBodyFilter true maxBody (r.gathered body) call =
      if body.length + call.bytes.length > maxBody then .ok (r.overflowed, none)
      else do
        let expiry ← call.now.add r.ttl
        return (⟨none, some r.ttl, r.status, [], [], false⟩,
          some ⟨r.key, expiry, ⟨r.status, r.headers, body ++ call.bytes⟩⟩) := by
  have hextend := extend_gathered (r := r) h call
  unfold upstreamResponseBodyFilter
  show (if false then _ else _) = _
  dsimp only
  rw [hextend, hend]
  by_cases hover : body.length + call.bytes.length > maxBody
  · rw [if_pos hover, if_pos hover]
    rfl
  · rw [if_neg hover, if_neg hover]
    rfl

/-- Nothing is put once the body has become too large. -/
theorem filterBody_overflowed (r : AcceptedResponse) (maxBody : Nat) (calls : List BodyCall) :
    filterBody true maxBody r.overflowed calls = [] := by
  induction calls with
  | nil => rfl
  | cons call calls ih => exact ih

theorem extend_cacheKey (maxBody : Nat) (ctx : CaptureCtx) (chunk : Option Bytes) :
    (ctx.extend maxBody chunk).cacheKey = ctx.cacheKey := by
  unfold CaptureCtx.extend
  cases chunk with
  | none => rfl
  | some chunk =>
    show (if ctx.cacheBody.length + chunk.length > maxBody then _ else _ : CaptureCtx).cacheKey = _
    split <;> rfl

/-- **A call puts nothing and leaves the key, or it ends the body and takes the key.** -/
theorem filter_cases {hasCache : Bool} {maxBody : Nat} {ctx ctx' : CaptureCtx} {call : BodyCall}
    {stored : Option Store} (h : upstreamResponseBodyFilter hasCache maxBody ctx call = .ok (ctx', stored)) :
    (stored = none ∧ ctx'.cacheKey = ctx.cacheKey) ∨
      (call.endOfStream = true ∧ ctx.cacheKey ≠ none ∧ ctx'.cacheKey = none) := by
  unfold upstreamResponseBodyFilter at h
  split at h
  · split at h
    · cases h
      exact .inl ⟨rfl, rfl⟩
    · dsimp only at h
      split at h
      · rename_i key hend hkey
        obtain ⟨expiry, -, hp⟩ := Checks.bind_eq_ok.1 h
        cases hp
        rw [extend_cacheKey] at hkey
        refine .inr ⟨(Bool.and_eq_true_iff.1 hend).1, ?_, rfl⟩
        rw [hkey]
        exact Option.some_ne_none key
      · cases h
        exact .inl ⟨rfl, extend_cacheKey maxBody ctx call.body⟩
  · cases h
    exact .inl ⟨rfl, rfl⟩

/-- Nothing is put before the end of the body. -/
theorem filterBody_open {hasCache : Bool} {maxBody : Nat} {calls : List BodyCall}
    (hopen : ∀ call ∈ calls, call.endOfStream = false) (ctx : CaptureCtx) :
    filterBody hasCache maxBody ctx calls = [] := by
  induction calls generalizing ctx with
  | nil => rfl
  | cons call calls ih =>
    unfold filterBody
    split
    · rename_i ctx' stored hstep
      obtain ⟨rfl, -⟩ | ⟨hend, -⟩ := filter_cases hstep
      · exact ih (fun c hc => hopen c (List.mem_cons_of_mem call hc)) ctx'
      · rw [hopen call List.mem_cons_self] at hend
        cases hend
    · rfl

/-- Nothing is put without a key, and no call brings one back. -/
theorem filterBody_no_key {hasCache : Bool} {maxBody : Nat} (calls : List BodyCall) {ctx : CaptureCtx}
    (h : ctx.cacheKey = none) : filterBody hasCache maxBody ctx calls = [] := by
  induction calls generalizing ctx with
  | nil => rfl
  | cons call calls ih =>
    unfold filterBody
    split
    · rename_i ctx' stored hstep
      obtain ⟨rfl, hkey⟩ | ⟨-, hkey, -⟩ := filter_cases hstep
      · exact ih (hkey.trans h)
      · exact absurd h hkey
    · rfl

/-- Nothing is put without a lifetime. -/
theorem filterBody_no_ttl {hasCache : Bool} {maxBody : Nat} (calls : List BodyCall) {ctx : CaptureCtx}
    (h : ctx.cacheTtl = none) : filterBody hasCache maxBody ctx calls = [] := by
  induction calls with
  | nil => rfl
  | cons call calls ih =>
    have hstep : upstreamResponseBodyFilter hasCache maxBody ctx call = .ok (ctx, none) := by
      unfold upstreamResponseBodyFilter
      rw [h]
      cases hasCache <;> rfl
    unfold filterBody
    rw [hstep]
    exact ih

/-- **What is put of a response is decided by its heads**: the body filter goes on as for the response they accept, or
puts nothing. -/
theorem filterBody_heads (key : Str) (heads : List ResponseHead) (maxBody : Nat) (calls : List BodyCall) :
    filterBody true maxBody (heads.foldl (upstreamResponseFilter true) (CaptureCtx.new (some key))) calls =
      (heads.foldl (upstreamResponseFilter true) (CaptureCtx.new (some key))).accepted.elim []
        (fun r => filterBody true maxBody r.ctx calls) := by
  rcases foldl_upstreamResponseFilter_cases key heads (.inr (.inl rfl)) with hnone | hnew | ⟨r, hr⟩
  · rw [filterBody_no_key calls hnone, CaptureCtx.accepted, hnone]
    rfl
  · rw [hnew, filterBody_no_ttl calls rfl]
    rfl
  · rw [hr]
    rfl

/-- **At most one entry is put, whatever the calls.** -/
theorem filterBody_once {hasCache : Bool} {maxBody : Nat} (ctx : CaptureCtx) (calls : List BodyCall) :
    (filterBody hasCache maxBody ctx calls).length ≤ 1 := by
  induction calls generalizing ctx with
  | nil => exact Nat.zero_le 1
  | cons call calls ih =>
    unfold filterBody
    split
    · rename_i ctx' stored hstep
      obtain ⟨rfl, -⟩ | ⟨-, -, hkey⟩ := filter_cases hstep
      · exact ih ctx'
      · rw [filterBody_no_key calls hkey, List.append_nil]
        cases stored with
        | none => exact Nat.zero_le 1
        | some p => exact Nat.le_refl 1
    · exact Nat.zero_le 1

/-- **The calls of a whole body put what `accumulate` makes of its chunks.** -/
theorem filterBody_gathered {r : AcceptedResponse} {maxBody : Nat} {before : List BodyCall} {last : BodyCall}
    (hopen : ∀ call ∈ before, call.endOfStream = false) (hlast : last.endOfStream = true) {body : Bytes}
    (h : body.length ≤ maxBody) :
    filterBody true maxBody (r.gathered body) (before ++ [last]) =
      (r.stored maxBody last.now body ((before ++ [last]).map BodyCall.bytes)).toList := by
  induction before generalizing body with
  | nil =>
    show filterBody true maxBody (r.gathered body) [last] = (r.stored maxBody last.now body [last.bytes]).toList
    unfold filterBody
    rw [filter_last h hlast]
    unfold AcceptedResponse.stored accumulate
    by_cases hover : body.length + last.bytes.length > maxBody
    · rw [if_pos hover, if_pos hover]
      rfl
    · rw [if_neg hover, if_neg hover]
      show _ = (ProxyConfig.storeUntil r.key last.now r.ttl ⟨r.status, r.headers, body ++ last.bytes⟩).toList
      unfold ProxyConfig.storeUntil
      cases last.now.add r.ttl with
      | error _ => rfl
      | ok expiry => rfl
  | cons call before ih =>
    have hcall := filter_open (r := r) h (hopen call List.mem_cons_self)
    have hrest : ∀ c ∈ before, c.endOfStream = false := fun c hc => hopen c (List.mem_cons_of_mem call hc)
    show (match upstreamResponseBodyFilter true maxBody (r.gathered body) call with
      | .ok (ctx, stored) => stored.toList ++ filterBody true maxBody ctx (before ++ [last])
      | .error _ => []) = _
    rw [hcall]
    show filterBody true maxBody _ (before ++ [last]) = _
    unfold AcceptedResponse.stored
    rw [List.cons_append, List.map_cons, accumulate]
    by_cases hover : body.length + call.bytes.length > maxBody
    · rw [if_pos hover, if_pos hover, filterBody_overflowed]
      rfl
    · rw [if_neg hover, if_neg hover]
      exact ih hrest (by rw [List.length_append]; omega)

/-! ## The relay -/

namespace Http3

/-- A frame that ends the relay leaves no buffer. -/
theorem relayFrames_broken {active : Bool} {max : Nat} {frames : List UpstreamFrame}
    (h : ∃ frame ∈ frames, frame.relayed = false) (buf : Bytes × Bool) : relayFrames active max buf frames = none := by
  induction frames generalizing buf with
  | nil =>
    obtain ⟨frame, hmem, -⟩ := h
    cases hmem
  | cons frame frames ih =>
    cases frame with
    | failed => rfl
    | trailers =>
      obtain ⟨bad, hmem, hbad⟩ := h
      obtain rfl | hmem := List.mem_cons.1 hmem
      · cases hbad
      · exact ih ⟨bad, hmem, hbad⟩ buf
    | data bytes sent =>
      cases sent with
      | false => rfl
      | true =>
        obtain ⟨bad, hmem, hbad⟩ := h
        obtain rfl | hmem := List.mem_cons.1 hmem
        · cases hbad
        · exact ih ⟨bad, hmem, hbad⟩ _

/-- A buffer that overflowed stays so. -/
theorem relayFrames_overflowed {max : Nat} {frames : List UpstreamFrame}
    (h : ∀ frame ∈ frames, frame.relayed = true) : relayFrames true max ([], true) frames = some ([], true) := by
  induction frames with
  | nil => rfl
  | cons frame frames ih =>
    have hframe := h frame List.mem_cons_self
    have hrest := ih (fun f hf => h f (List.mem_cons_of_mem frame hf))
    cases frame with
    | failed => cases hframe
    | trailers => exact hrest
    | data bytes sent =>
      cases hframe
      exact hrest

/-- The buffer of a body whose frames are all relayed. -/
def gathered : Option Bytes → Bytes × Bool
  | some body => (body, false)
  | none => ([], true)

/-- **The frames of a whole body leave what `accumulate` makes of their bytes.** -/
theorem relayFrames_gathered {max : Nat} {frames : List UpstreamFrame} (h : ∀ frame ∈ frames, frame.relayed = true)
    {body : Bytes} (hbody : body.length ≤ max) :
    relayFrames true max (body, false) frames =
      some (gathered (accumulate max body (frames.map UpstreamFrame.bytes))) := by
  induction frames generalizing body with
  | nil => rfl
  | cons frame frames ih =>
    have hframe := h frame List.mem_cons_self
    have hrest : ∀ f ∈ frames, f.relayed = true := fun f hf => h f (List.mem_cons_of_mem frame hf)
    cases frame with
    | failed => cases hframe
    | trailers =>
      show relayFrames true max (body, false) frames = _
      rw [ih hrest hbody, List.map_cons, accumulate]
      show _ = some (gathered (if body.length + 0 > max then none else accumulate max (body ++ []) _))
      rw [if_neg (by omega), List.append_nil]
    | data bytes sent =>
      cases hframe
      rw [List.map_cons, accumulate]
      show relayFrames true max (if body.length + bytes.length > max then ([], true) else (body ++ bytes, false)) frames
        = some (gathered (if body.length + bytes.length > max then none else accumulate max (body ++ bytes) _))
      by_cases hover : body.length + bytes.length > max
      · rw [if_pos hover, if_pos hover]
        exact relayFrames_overflowed hrest
      · rw [if_neg hover, if_neg hover]
        exact ih hrest (by rw [List.length_append]; omega)

/-- **The relay of a whole body puts what `accumulate` makes of its chunks.** -/
theorem relayAndStore_whole {r : AcceptedResponse} {maxBody : Nat} {frames : List UpstreamFrame}
    (h : ∀ frame ∈ frames, frame.relayed = true) (now : SystemTime) (p : Store) :
    relayAndStore true maxBody (some r) frames true now = .ok (some p) ↔
      r.stored maxBody now [] (frames.map UpstreamFrame.bytes) = some p := by
  unfold relayAndStore AcceptedResponse.stored
  rw [Option.isSome_some, relayFrames_gathered h (Nat.zero_le maxBody)]
  cases accumulate maxBody [] (frames.map UpstreamFrame.bytes) with
  | none => exact iff_of_false (fun h => by cases h) (fun h => by cases h)
  | some body =>
    show (do let expiry ← now.add r.ttl; return some ⟨r.key, expiry, ⟨r.status, r.headers, body⟩⟩ : Except Panic _)
      = .ok (some p) ↔ ProxyConfig.storeUntil r.key now r.ttl ⟨r.status, r.headers, body⟩ = some p
    unfold ProxyConfig.storeUntil
    cases now.add r.ttl with
    | error _ => exact iff_of_false (fun h => by cases h) (fun h => by cases h)
    | ok expiry =>
      show Except.ok (some (⟨r.key, expiry, ⟨r.status, r.headers, body⟩⟩ : Store)) = Except.ok (some p) ↔ _
      rw [Except.ok.injEq]

/-- A body that ends in an error, or a client that is gone, stores nothing. -/
theorem relayAndStore_broken {hasCache : Bool} {maxBody : Nat} {cacheStore : Option AcceptedResponse}
    {frames : List UpstreamFrame} {finished : Bool} (h : finished = false ∨ ∃ frame ∈ frames, frame.relayed = false)
    (now : SystemTime) : relayAndStore hasCache maxBody cacheStore frames finished now = .ok none := by
  unfold relayAndStore
  obtain rfl | hbroken := h
  · cases relayFrames cacheStore.isSome maxBody ([], false) frames with
    | none => rfl
    | some buf => rfl
  · rw [relayFrames_broken hbroken]

end Http3

/-! ## Whole or nothing -/

/-- A body that is delivered whole: the filter's calls and the relay's frames carry the same bytes. -/
structure Delivery where
  before : List BodyCall
  last : BodyCall
  frames : List UpstreamFrame
  open_before : ∀ call ∈ before, call.endOfStream = false
  ends : last.endOfStream = true
  relayed : ∀ frame ∈ frames, frame.relayed = true
  same : (frames.map UpstreamFrame.bytes).flatten = ((before ++ [last]).map BodyCall.bytes).flatten

namespace Delivery

variable (d : Delivery) (r : AcceptedResponse) (maxBody : Nat)

def body : Bytes := ((d.before ++ [d.last]).map BodyCall.bytes).flatten

/-- What HTTP/1 and HTTP/2 put of the response. -/
def filtered : List Store := filterBody true maxBody r.ctx (d.before ++ [d.last])

/-- What HTTP/3 puts of it. -/
def relay : Except Panic (Option Store) := Http3.relayAndStore true maxBody (some r) d.frames true d.last.now

/-- What either listener should put: the whole body when it fits. -/
def put : Option Store :=
  if d.body.length ≤ maxBody then ProxyConfig.storeUntil r.key d.last.now r.ttl ⟨r.status, r.headers, d.body⟩
  else none

theorem stored_eq_put {chunks : List Bytes} (h : chunks.flatten = d.body) :
    r.stored maxBody d.last.now [] chunks = d.put r maxBody := by
  unfold AcceptedResponse.stored put
  rw [accumulate_eq chunks (Nat.zero_le maxBody), List.nil_append, h]
  by_cases hfit : d.body.length ≤ maxBody
  · rw [if_pos hfit, if_pos hfit]
    rfl
  · rw [if_neg hfit, if_neg hfit]
    rfl

theorem filtered_eq : d.filtered r maxBody = (d.put r maxBody).toList := by
  rw [← d.stored_eq_put r maxBody rfl]
  exact filterBody_gathered d.open_before d.ends (Nat.zero_le maxBody)

theorem relay_eq_some_iff (p : Store) : d.relay r maxBody = .ok (some p) ↔ d.put r maxBody = some p := by
  unfold relay
  rw [Http3.relayAndStore_whole d.relayed, d.stored_eq_put r maxBody d.same]

end Delivery

/-- The whole body or nothing: how a response is stored by either listener. -/
structure WholeOrNothing (maxBody : Nat) (r : AcceptedResponse) (d : Delivery) : Prop where
  filtered_iff : d.filtered r maxBody ≠ [] ↔ d.body.length ≤ maxBody
  relayed_iff : (∃ p, d.relay r maxBody = .ok (some p)) ↔ d.body.length ≤ maxBody
  filtered_whole : ∀ p ∈ d.filtered r maxBody, p.key = r.key ∧ p.response = ⟨r.status, r.headers, d.body⟩
  relayed_whole : ∀ p, d.relay r maxBody = .ok (some p) → p.key = r.key ∧ p.response = ⟨r.status, r.headers, d.body⟩
  once : ∀ calls : List BodyCall, (filterBody true maxBody r.ctx calls).length ≤ 1
  agree : ∀ p, d.relay r maxBody = .ok (some p) ↔ p ∈ d.filtered r maxBody
  filtered_cut : ∀ calls : List BodyCall, (∀ call ∈ calls, call.endOfStream = false) →
    filterBody true maxBody r.ctx calls = []
  relayed_cut : ∀ (frames : List UpstreamFrame) (finished : Bool) (now : SystemTime),
    (finished = false ∨ ∃ frame ∈ frames, frame.relayed = false) →
      Http3.relayAndStore true maxBody (some r) frames finished now = .ok none

/-- **A response is stored whole when it fits and not at all otherwise, exactly when a body that fits has a lifetime
that ends before the clock does.** -/
theorem stored_whole_iff (maxBody : Nat) (r : AcceptedResponse) (d : Delivery) :
    WholeOrNothing maxBody r d ↔
      (d.body.length ≤ maxBody → d.last.now.nanos + r.ttl * nanosPerSec < endOfTime) := by
  have hmem : ∀ p, p ∈ d.filtered r maxBody ↔ d.put r maxBody = some p := by
    intro p
    rw [d.filtered_eq r maxBody, Option.mem_toList]
  have hwhole : ∀ p, d.put r maxBody = some p → p.key = r.key ∧ p.response = ⟨r.status, r.headers, d.body⟩ := by
    intro p hp
    unfold Delivery.put at hp
    split at hp
    · exact storeUntil_eq_some hp
    · cases hp
  constructor
  · intro h hfit
    obtain ⟨p, hp⟩ := h.relayed_iff.2 hfit
    rw [d.relay_eq_some_iff, Delivery.put, if_pos hfit] at hp
    unfold ProxyConfig.storeUntil at hp
    rw [← SystemTime.add_isOk_iff]
    split at hp
    · exact ⟨_, ‹_›⟩
    · cases hp
  · intro hends
    -- something is put exactly when the body fits
    have hput : (∃ p, d.put r maxBody = some p) ↔ d.body.length ≤ maxBody := by
      unfold Delivery.put
      by_cases hfit : d.body.length ≤ maxBody
      · obtain ⟨expiry, hexpiry⟩ := (SystemTime.add_isOk_iff d.last.now r.ttl).2 (hends hfit)
        rw [if_pos hfit]
        unfold ProxyConfig.storeUntil
        rw [hexpiry]
        exact iff_of_true ⟨_, rfl⟩ hfit
      · rw [if_neg hfit]
        exact iff_of_false (fun ⟨p, hp⟩ => by cases hp) hfit
    have hrelayed : (∃ p, d.relay r maxBody = .ok (some p)) ↔ d.body.length ≤ maxBody := by
      rw [← hput]
      exact exists_congr (d.relay_eq_some_iff r maxBody)
    refine ⟨?_, hrelayed, fun p hp => hwhole p ((hmem p).1 hp),
      fun p hp => hwhole p ((d.relay_eq_some_iff r maxBody p).1 hp), fun calls => filterBody_once r.ctx calls,
      fun p => (d.relay_eq_some_iff r maxBody p).trans (hmem p).symm, fun calls hopen => filterBody_open hopen r.ctx,
      fun frames finished now hbroken => Http3.relayAndStore_broken hbroken now⟩
    rw [← hput, d.filtered_eq]
    cases d.put r maxBody with
    | none => exact iff_of_false (fun h => h rfl) (fun ⟨p, hp⟩ => by cases hp)
    | some p => exact iff_of_true (List.cons_ne_nil p []) ⟨p, rfl⟩

/-- A small response that may be kept for 2^64 - 1 seconds. -/
def endlessAccepted : AcceptedResponse := ⟨"a.test/".toList, 18446744073709551615, 200, []⟩

/-- Its body in one chunk, at the epoch. -/
def hiDelivery : Delivery :=
  ⟨[], ⟨some [104, 105], true, SystemTime.epoch⟩, [.data [104, 105] true], fun _ h => (List.not_mem_nil h).elim, rfl,
    List.forall_mem_singleton.2 rfl, rfl⟩

/-- **A body of two bytes is not stored under a limit of 65536, since its lifetime ends after the clock.** -/
theorem endless_body_dropped :
    responseTtl 200 (some "max-age=18446744073709551615".toList) false none = some endlessAccepted.ttl ∧
      hiDelivery.body = [104, 105] ∧ hiDelivery.filtered endlessAccepted 65536 = [] ∧
      ¬ WholeOrNothing 65536 endlessAccepted hiDelivery := by
  have hnone : hiDelivery.filtered endlessAccepted 65536 = [] := by decide
  refine ⟨by decide, rfl, hnone, ?_⟩
  intro h
  exact h.filtered_iff.2 (by decide) hnone

end Zaphyl
