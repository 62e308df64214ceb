import Zaphyl.Utf8
/-!
# RequestBody — the request bodies of the HTTP/3 listener

A plugin route buffers the body up to a cap; any other route streams it to the upstream up to a limit.  Both loops end
alike at the end of the client's stream and at a failure of it, and the streaming loop ends alike at its limit.  What is
handed on is the client's whole body exactly when the stream ended or what was lost shows (`delivered_whole_iff`).
-/
namespace Zaphyl

/-- What a client's stream yields: DATA chunks, then its end or a failure. -/
inductive ClientStream
  | chunk (bytes : Bytes) (rest : ClientStream)
  | finished
  | failed
deriving DecidableEq

namespace ClientStream

def chunks : ClientStream → List Bytes
  | chunk bytes rest => bytes :: rest.chunks
  | finished => []
  | failed => []

def body (s : ClientStream) : Bytes := s.chunks.flatten

def endsCleanly : ClientStream → Bool
  | chunk _ rest => rest.endsCleanly
  | finished => true
  | failed => false

@[simp] theorem body_chunk (bytes : Bytes) (rest : ClientStream) : (chunk bytes rest).body = bytes ++ rest.body := rfl

@[simp] theorem body_finished : finished.body = [] := rfl

@[simp] theorem body_failed : failed.body = [] := rfl

end ClientStream

/-! ## The two loops -/

/-- Buffer the body after `buffered`, bounded by the plugin body cap; `none` when it is too large. -/
def bufferBody (cap : Nat) (buffered : Bytes) : ClientStream → Option Bytes
  | .chunk bytes rest =>
    if buffered.length + bytes.length > cap then none else bufferBody cap (buffered ++ bytes) rest
  | .finished => some buffered
  | .failed => some buffered

/-- The frames the forwarder task sends after `seen` bytes and `sent` frames.  The upstream drops the receiver after
`receiver` frames, if that is given. -/
def forwardBody (maxBody receiver : Option Nat) (seen sent : Nat) : ClientStream → List Bytes
  | .chunk bytes rest =>
    let seen := if maxBody.isSome then seen + bytes.length else seen
    if maxBody.any (fun max => seen > max) then []
    else if receiver = some sent then []
    else bytes :: forwardBody maxBody receiver seen (sent + 1) rest
  | .finished => []
  | .failed => []

/-- The part of hyper's client that ends a request whose body stream ends: the upstream is passed a body as complete, or
the request fails.  A client may cut a body to its declared length, or drop that of a GET which declares none; it
passes no bytes that it was not given. -/
structure UpstreamClient where
  passes : Option Nat → Bytes → Option Bytes
  given : ∀ {declared body passed}, passes declared body = some passed → passed <+: body

structure BodyLimits where
  maxBodyBytes : Option Nat
  pluginMaxBody : Option Nat

/-- What a request's body comes to: a refusal with 413, a buffered body for the plugin chain, a body the upstream takes
for complete, or a failed upstream request. -/
inductive Delivered
  | tooLarge
  | plugins (body : Bytes)
  | upstream (body : Bytes)
  | failed
deriving DecidableEq

/-- The streaming path.  The end of the channel is the end of the upstream request's body, unless the upstream has
dropped the receiver by then. -/
def streamBody (client : UpstreamClient) (limits : BodyLimits) (declared receiver : Option Nat) (s : ClientStream) :
    Delivered :=
  if limits.maxBodyBytes.any (fun max => declared.any (fun len => len > max)) then .tooLarge
  else
    let frames := forwardBody limits.maxBodyBytes receiver 0 0 s
    if receiver.any (fun dropped => dropped ≤ frames.length) then .failed
    else
      match client.passes declared frames.flatten with
      | some body => .upstream body
      | none => .failed

/-- The buffered path of a route with a plugin chain. -/
def pluginBody (cap : Nat) (s : ClientStream) : Delivered :=
  match bufferBody cap [] s with
  | some body => .plugins body
  | none => .tooLarge

/-- The body handling of `proxy_request`: `pluginMaxBody` is the cap of a route with a plugin chain. -/
def deliverBody (client : UpstreamClient) (limits : BodyLimits) (declared receiver : Option Nat) (s : ClientStream) :
    Delivered :=
  match limits.pluginMaxBody with
  | some cap =>
    -- a declared length above the cap is streamed
    if declared.all (fun len => len ≤ cap) then pluginBody cap s
    else streamBody client limits declared receiver s
  | none => streamBody client limits declared receiver s

/-! ## What the loops keep -/

/-- The first chunks that fit in `budget`. -/
def upTo : Option Nat → List Bytes → List Bytes
  | none, chunks => chunks
  | some _, [] => []
  | some budget, bytes :: chunks =>
    if bytes.length ≤ budget then bytes :: upTo (some (budget - bytes.length)) chunks else []

/-- **The buffer loop gives the chunks whole or refuses them**, however the stream ends. -/
theorem bufferBody_eq_some_iff {cap : Nat} : ∀ {s : ClientStream} {buffered body : Bytes}, buffered.length ≤ cap →
    (bufferBody cap buffered s = some body ↔ buffered.length + s.body.length ≤ cap ∧ body = buffered ++ s.body)
  | .finished, buffered, body, h => by
    simp only [bufferBody, ClientStream.body_finished, List.length_nil, Nat.add_zero, List.append_nil,
      Option.some.injEq]
    exact ⟨fun hb => ⟨h, hb.symm⟩, fun hb => hb.2.symm⟩
  | .failed, buffered, body, h => by
    simp only [bufferBody, ClientStream.body_failed, List.length_nil, Nat.add_zero, List.append_nil, Option.some.injEq]
    exact ⟨fun hb => ⟨h, hb.symm⟩, fun hb => hb.2.symm⟩
  | .chunk bytes rest, buffered, body, h => by
    rw [bufferBody, ClientStream.body_chunk, List.length_append]
    split
    · rename_i hlarge
      constructor
      · intro hb
        cases hb
      · rintro ⟨hle, -⟩
        omega
    · rename_i hfits
      have hnext : (buffered ++ bytes).length ≤ cap := by
        rw [List.length_append]
        omega
      rw [bufferBody_eq_some_iff hnext, List.length_append, List.append_assoc, Nat.add_assoc]

theorem bufferBody_empty_eq_some_iff {cap : Nat} {s : ClientStream} {body : Bytes} :
    bufferBody cap [] s = some body ↔ s.body.length ≤ cap ∧ body = s.body := by
  simpa using @bufferBody_eq_some_iff cap s [] body (Nat.zero_le cap)

theorem bufferBody_empty_eq_none_iff {cap : Nat} {s : ClientStream} :
    bufferBody cap [] s = none ↔ cap < s.body.length := by
  rw [Option.eq_none_iff_forall_ne_some, ← not_le]
  constructor
  · exact fun h hle => h s.body (bufferBody_empty_eq_some_iff.2 ⟨hle, rfl⟩)
  · exact fun h body hb => h (bufferBody_empty_eq_some_iff.1 hb).1

theorem forwardBody_unlimited : ∀ (s : ClientStream) (seen sent : Nat), forwardBody none none seen sent s = s.chunks
  | .finished, _, _ => rfl
  | .failed, _, _ => rfl
  | .chunk bytes rest, seen, sent => by
    have ih := forwardBody_unlimited rest seen (sent + 1)
    simp [forwardBody, ClientStream.chunks, ih]

theorem forwardBody_limited (max : Nat) : ∀ (s : ClientStream) (seen sent : Nat), seen ≤ max →
    forwardBody (some max) none seen sent s = upTo (some (max - seen)) s.chunks
  | .finished, _, _, _ => rfl
  | .failed, _, _, _ => rfl
  | .chunk bytes rest, seen, sent, h => by
    by_cases hfits : seen + bytes.length ≤ max
    · have ih := forwardBody_limited max rest (seen + bytes.length) (sent + 1) hfits
      have hle : bytes.length ≤ max - seen := by omega
      have hlt : ¬ (seen + bytes.length > max) := by omega
      simp [forwardBody, ClientStream.chunks, upTo, hle, hlt, ih, Nat.sub_add_eq]
    · have hle : ¬ (bytes.length ≤ max - seen) := by omega
      have hlt : seen + bytes.length > max := by omega
      simp [forwardBody, ClientStream.chunks, upTo, hle, hlt]

/-- **The forwarder sends the chunks that fit**, however the stream ends. -/
theorem forwardBody_eq_upTo (maxBody : Option Nat) (s : ClientStream) :
    forwardBody maxBody none 0 0 s = upTo maxBody s.chunks := by
  cases maxBody with
  | none =>
    rw [upTo]
    exact forwardBody_unlimited s 0 0
  | some max => exact forwardBody_limited max s 0 0 (Nat.zero_le _)

theorem forwardBody_dropped (maxBody : Option Nat) (n : Nat) : ∀ (s : ClientStream) (seen sent : Nat), sent ≤ n →
    forwardBody maxBody (some n) seen sent s = (forwardBody maxBody none seen sent s).take (n - sent)
  | .finished, _, _, _ => by simp [forwardBody]
  | .failed, _, _, _ => by simp [forwardBody]
  | .chunk bytes rest, seen, sent, h => by
    simp only [forwardBody]
    generalize (if maxBody.isSome = true then seen + bytes.length else seen) = total
    by_cases hover : maxBody.any (fun max => total > max) = true
    · rw [if_pos hover, if_pos hover, List.take_nil]
    · rw [if_neg hover, if_neg hover]
      by_cases hn : n = sent
      · simp [hn]
      · have ih := forwardBody_dropped maxBody n rest total (sent + 1) (by omega)
        have hsucc : n - sent = n - (sent + 1) + 1 := by omega
        rw [if_neg (by simpa using hn), if_neg (by simp), ih, hsucc, List.take_succ_cons]

theorem upTo_flatten_eq_iff : ∀ (chunks : List Bytes) (budget : Option Nat),
    (upTo budget chunks).flatten = chunks.flatten ↔ ∀ max, budget = some max → chunks.flatten.length ≤ max
  | chunks, none => by simp [upTo]
  | [], some budget => by simp [upTo]
  | bytes :: chunks, some budget => by
    rw [upTo]
    split
    · rename_i hle
      have ih := upTo_flatten_eq_iff chunks (some (budget - bytes.length))
      rw [List.flatten_cons, List.flatten_cons, List.append_cancel_left_eq, ih]
      simp only [Option.some.injEq, forall_eq', List.length_append]
      omega
    · rename_i hlarge
      simp only [List.flatten_nil, List.flatten_cons, Option.some.injEq, forall_eq', List.length_append]
      constructor
      · intro h
        have := congrArg List.length h
        simp only [List.length_nil, List.length_append] at this
        omega
      · intro h
        omega

theorem upTo_prefix_flatten : ∀ (chunks : List Bytes) (budget : Option Nat),
    (upTo budget chunks).flatten <+: chunks.flatten
  | chunks, none => by
    unfold upTo
    exact List.prefix_rfl
  | [], some _ => List.prefix_rfl
  | bytes :: chunks, some budget => by
    rw [upTo]
    split
    · rw [List.flatten_cons, List.flatten_cons, List.prefix_append_right_inj]
      exact upTo_prefix_flatten chunks (some (budget - bytes.length))
    · exact List.nil_prefix

/-! ## What is handed on -/

/-- The client's stream ended, and `body` is all of it. -/
def WholeBody (s : ClientStream) (body : Bytes) : Prop := s.endsCleanly = true ∧ body = s.body

/-- **Whatever is handed on as a complete body is the client's.** -/
def DeliversWhole (client : UpstreamClient) (limits : BodyLimits) (declared receiver : Option Nat) (s : ClientStream) :
    Prop :=
  ∀ body, deliverBody client limits declared receiver s = .plugins body ∨
    deliverBody client limits declared receiver s = .upstream body → WholeBody s body

/-- The body takes the buffered path: its route has plugins and it declares no length above their cap. -/
def BodyLimits.buffers (limits : BodyLimits) (declared : Option Nat) (cap : Nat) : Prop :=
  limits.pluginMaxBody = some cap ∧ ∀ len, declared = some len → len ≤ cap

/-- Nothing is lost on the streaming path, or the loss shows: the stream ended within the limit and the client passes
its body on uncut, the upstream went away while chunks that fit were sent, the declared length was refused, or the client
fails the request with the chunks that fit. -/
def StreamsWhole (client : UpstreamClient) (limits : BodyLimits) (declared receiver : Option Nat) (s : ClientStream) :
    Prop :=
  (s.endsCleanly = true ∧ (∀ max, limits.maxBodyBytes = some max → s.body.length ≤ max) ∧
      client.passes declared s.body = some s.body) ∨
    (∃ dropped, receiver = some dropped ∧ dropped ≤ (upTo limits.maxBodyBytes s.chunks).length) ∨
    (∃ len, declared = some len ∧ ∃ max, limits.maxBodyBytes = some max ∧ max < len) ∨
    client.passes declared (upTo limits.maxBodyBytes s.chunks).flatten = none

/-- A receiver that outlasts the chunks that fit gets them all. -/
theorem forwardBody_of_kept {maxBody receiver : Option Nat} {s : ClientStream}
    (h : ¬ ∃ dropped, receiver = some dropped ∧ dropped ≤ (upTo maxBody s.chunks).length) :
    forwardBody maxBody receiver 0 0 s = upTo maxBody s.chunks ∧
      receiver.any (fun dropped => dropped ≤ (upTo maxBody s.chunks).length) = false := by
  cases receiver with
  | none => exact ⟨forwardBody_eq_upTo maxBody s, rfl⟩
  | some dropped =>
    have hlt : ¬ (dropped ≤ (upTo maxBody s.chunks).length) := fun hle => h ⟨dropped, rfl, hle⟩
    rw [forwardBody_dropped _ _ _ _ _ (Nat.zero_le _), forwardBody_eq_upTo, List.take_of_length_le (by omega)]
    exact ⟨rfl, by simpa using hlt⟩

theorem refuses_iff (maxBody declared : Option Nat) :
    maxBody.any (fun max => declared.any (fun len => len > max)) = true ↔
      ∃ len, declared = some len ∧ ∃ max, maxBody = some max ∧ max < len := by
  cases maxBody <;> cases declared <;> simp

theorem streamBody_whole_iff (client : UpstreamClient) (limits : BodyLimits) (declared receiver : Option Nat)
    (s : ClientStream) :
    (∀ body, streamBody client limits declared receiver s = .upstream body → WholeBody s body) ↔
      StreamsWhole client limits declared receiver s := by
  unfold streamBody StreamsWhole
  by_cases hrefuse : limits.maxBodyBytes.any (fun max => declared.any (fun len => len > max)) = true
  · rw [if_pos hrefuse]
    obtain ⟨len, hlen, hmax⟩ := (refuses_iff _ _).1 hrefuse
    exact iff_of_true (fun body h => by cases h) (Or.inr (Or.inr (Or.inl ⟨len, hlen, hmax⟩)))
  · rw [if_neg hrefuse]
    have hnone : ¬ ∃ len, declared = some len ∧ ∃ max, limits.maxBodyBytes = some max ∧ max < len :=
      fun h => hrefuse ((refuses_iff _ _).2 h)
    by_cases hgone : ∃ dropped, receiver = some dropped ∧ dropped ≤ (upTo limits.maxBodyBytes s.chunks).length
    · have hdropped : receiver.any (fun dropped =>
          dropped ≤ (forwardBody limits.maxBodyBytes receiver 0 0 s).length) = true := by
        obtain ⟨dropped, rfl, hle⟩ := hgone
        rw [forwardBody_dropped _ _ _ _ _ (Nat.zero_le _), forwardBody_eq_upTo, List.length_take]
        simpa using hle
      simp only [hdropped, if_true]
      exact iff_of_true (fun body h => by cases h) (Or.inr (Or.inl hgone))
    · obtain ⟨hframes, hkept⟩ := forwardBody_of_kept hgone
      simp only [hframes, hkept, Bool.false_eq_true, if_false]
      cases hpassed : client.passes declared (upTo limits.maxBodyBytes s.chunks).flatten with
      | none => exact iff_of_true (fun body h => by cases h) (Or.inr (Or.inr (Or.inr rfl)))
      | some passed =>
        simp only [Delivered.upstream.injEq, forall_eq', WholeBody]
        have hfit : (upTo limits.maxBodyBytes s.chunks).flatten = s.body ↔ _ :=
          upTo_flatten_eq_iff s.chunks limits.maxBodyBytes
        constructor
        · rintro ⟨hclean, rfl⟩
          -- what is passed is a start of what fits, and what fits a start of the body
          have hlonger := (client.given hpassed).length_le
          have hwhole : (upTo limits.maxBodyBytes s.chunks).flatten = s.body :=
            (upTo_prefix_flatten s.chunks limits.maxBodyBytes).eq_of_length_le hlonger
          rw [hwhole] at hpassed
          exact Or.inl ⟨hclean, hfit.1 hwhole, hpassed⟩
        · rintro (⟨hclean, hmax, huncut⟩ | hdrop | hrefused | hfailed)
          · rw [hfit.2 hmax, huncut] at hpassed
            exact ⟨hclean, (Option.some.inj hpassed).symm⟩
          · exact absurd hdrop hgone
          · exact absurd hrefused hnone
          · cases hfailed

theorem streamBody_ne_plugins (client : UpstreamClient) (limits : BodyLimits) (declared receiver : Option Nat)
    (s : ClientStream) (body : Bytes) : streamBody client limits declared receiver s ≠ .plugins body := by
  intro h
  unfold streamBody at h
  split at h
  · cases h
  · simp only at h
    split at h
    · cases h
    · split at h <;> cases h

theorem pluginBody_eq_plugins_iff (cap : Nat) (s : ClientStream) (body : Bytes) :
    pluginBody cap s = .plugins body ↔ s.body.length ≤ cap ∧ body = s.body := by
  rw [← bufferBody_empty_eq_some_iff]
  unfold pluginBody
  cases bufferBody cap [] s <;> simp

theorem pluginBody_ne_upstream (cap : Nat) (s : ClientStream) (body : Bytes) : pluginBody cap s ≠ .upstream body := by
  intro h
  unfold pluginBody at h
  split at h <;> cases h

theorem pluginBody_whole_iff (cap : Nat) (s : ClientStream) :
    (∀ body, pluginBody cap s = .plugins body → WholeBody s body) ↔ s.endsCleanly = true ∨ cap < s.body.length := by
  constructor
  · intro h
    by_cases hfits : s.body.length ≤ cap
    · exact Or.inl (h s.body ((pluginBody_eq_plugins_iff cap s s.body).2 ⟨hfits, rfl⟩)).1
    · exact Or.inr (by omega)
  · rintro h body hbody
    obtain ⟨hfits, rfl⟩ := (pluginBody_eq_plugins_iff cap s body).1 hbody
    rcases h with hclean | hlarge
    · exact ⟨hclean, rfl⟩
    · omega

/-- **A complete body is the client's exactly when nothing was lost or the loss shows.**  On the buffered path: the
stream ended, or the body exceeds the plugins' cap; on the streaming path: `StreamsWhole`. -/
theorem delivered_whole_iff (client : UpstreamClient) (limits : BodyLimits) (declared receiver : Option Nat)
    (s : ClientStream) :
    DeliversWhole client limits declared receiver s ↔
      (∀ cap, limits.buffers declared cap → s.endsCleanly = true ∨ cap < s.body.length) ∧
      ((∀ cap, ¬ limits.buffers declared cap) → StreamsWhole client limits declared receiver s) := by
  have hstream : (∀ body, streamBody client limits declared receiver s = .plugins body ∨
      streamBody client limits declared receiver s = .upstream body → WholeBody s body) ↔
        StreamsWhole client limits declared receiver s := by
    rw [← streamBody_whole_iff]
    exact forall_congr' (fun body => by
      rw [or_iff_right (streamBody_ne_plugins client limits declared receiver s body)])
  have hplugin : ∀ cap, (∀ body, pluginBody cap s = .plugins body ∨ pluginBody cap s = .upstream body →
      WholeBody s body) ↔ s.endsCleanly = true ∨ cap < s.body.length := by
    intro cap
    rw [← pluginBody_whole_iff]
    exact forall_congr' (fun body => by rw [or_iff_left (pluginBody_ne_upstream cap s body)])
  unfold DeliversWhole deliverBody BodyLimits.buffers
  cases limits.pluginMaxBody with
  | none =>
    simp only
    rw [hstream]
    simp
  | some cap =>
    simp only [Option.some.injEq]
    by_cases hdeclared : declared.all (fun len => len ≤ cap) = true
    · rw [if_pos hdeclared, hplugin cap]
      have hlen : ∀ len, declared = some len → len ≤ cap := by
        rintro len rfl
        simpa using hdeclared
      constructor
      · intro h
        refine ⟨fun cap' hcap => ?_, fun hno => absurd ⟨rfl, hlen⟩ (hno cap)⟩
        obtain ⟨rfl, -⟩ := hcap
        exact h
      · exact fun h => h.1 cap ⟨rfl, hlen⟩
    · rw [if_neg hdeclared, hstream]
      have hno : ∀ cap', ¬ (cap = cap' ∧ ∀ len, declared = some len → len ≤ cap') := by
        rintro cap' ⟨rfl, h⟩
        apply hdeclared
        cases declared with
        | none => rfl
        | some len => simpa using h len rfl
      exact ⟨fun h => ⟨fun cap' hcap => absurd hcap (hno cap'), fun _ => h⟩, fun h => h.2 hno⟩

/-- A client that passes on all of a body without a declared length, and of another as much as it declares. -/
def byLength : UpstreamClient where
  passes
    | none, body => some body
    | some len, body => if len ≤ body.length then some (body.take len) else none
  given {declared body passed} h := by
    cases declared with
    | none =>
      cases h
      exact List.prefix_rfl
    | some len =>
      simp only at h
      split at h
      · cases h
        exact List.take_prefix len body
      · cases h

/-- **A failed stream and an exceeded limit end the upstream's body, and a failed stream the plugins'.** -/
theorem truncated_bodies_are_delivered :
    deliverBody byLength ⟨none, none⟩ none none (.chunk [1] .failed) = .upstream [1] ∧
      deliverBody byLength ⟨some 1, none⟩ none none (.chunk [1] (.chunk [2] .finished)) = .upstream [1] ∧
      deliverBody byLength ⟨none, some 8⟩ none none (.chunk [1] .failed) = .plugins [1] ∧
      ¬ DeliversWhole byLength ⟨none, none⟩ none none (.chunk [1] .failed) :=
  ⟨rfl, rfl, rfl, fun h => by cases (h [1] (Or.inr rfl)).1⟩

end Zaphyl
