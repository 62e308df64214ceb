import Zaphyl.Http3Streams
/-!
# Http3Relay — what the client is sent of an upstream's response

What the client has been sent and what is to be sent make up the relayed body, whichever chunks are to come.  So a
client whose stream is finished behind the upstream's head reads the upstream's body, by that head with the route's
headers in place (`finished_stream_relayed`), and what is stored is what the cache model stores of the fetch
(`streams_refine_fetch`).
-/
namespace Zaphyl

namespace Http3

/-! ## What the client is sent -/

/-- What the chunks behind the first ones and the end of the body are sent as. -/
def toSend {encoder : BodyEncoder} (coder : Option encoder.State) (chunks : List Bytes) : Bytes :=
  match coder with
  | some state => encoder.run state chunks
  | none => chunks.flatten

namespace StreamConfig

variable (cfg : StreamConfig)

def body (head : ResponseHead) (chunks : List Bytes) : Bytes :=
  relayedBody cfg.encoder cfg.heads cfg.req cfg.matched head chunks

theorem body_eq_toSend (head : ResponseHead) (chunks : List Bytes) :
    cfg.body head chunks = toSend ((cfg.encoding head).map cfg.encoder.new) chunks := by
  unfold body relayedBody StreamConfig.encoding StreamConfig.parts
  cases Http3.encoding cfg.heads cfg.req (relayed cfg.matched head) <;> rfl

end StreamConfig

namespace Download

variable {cfg : StreamConfig}

/-- The client is sent the response of this head. -/
structure Relaying (d : Download cfg.encoder) (head : ResponseHead) : Prop where
  answered : d.head = some head
  sentHead : d.sentHead = some (relay cfg.heads cfg.req cfg.matched head)

/-- The upstream did not answer in time, and the client has been told. -/
structure TimedOut (d : Download cfg.encoder) : Prop where
  limited : cfg.readTimeout.isSome = true
  unanswered : d.head = none
  sentHead : d.sentHead = some ⟨504, ⟨[]⟩⟩
  sentData : d.sentData = []

/-- The client has been sent all of the upstream's body. -/
structure Whole (d : Download cfg.encoder) (head : ResponseHead) : Prop where
  relaying : d.Relaying head
  ended : d.ended = true
  sent : d.sentData.flatten = cfg.body head d.frames

/-- The client has been sent nothing, that the upstream did not answer in time, or the start of what is relayed. -/
def Sent (d : Download cfg.encoder) : Prop :=
  d.sentHead = none ∧ d.sentData = [] ∨ d.TimedOut ∨
    ∃ head, d.Relaying head ∧ d.sentData.flatten <+: cfg.body head d.frames

/-- The state of the response at what the task waits for: what was sent and what is to be sent make up the body,
whichever chunks are to come. -/
def Shows (d : Download cfg.encoder) : Prop :=
  match d.pc with
  | .requesting => d.head = none ∧ d.frames = [] ∧ d.cacheBuf = ([], false) ∧ d.sentHead = none ∧ d.sentData = []
  | .sendingTimeout => cfg.readTimeout.isSome = true ∧ d.head = none ∧ d.sentHead = none ∧ d.sentData = []
  | .finishingTimeout => d.TimedOut
  | .sendingHead head => d.head = some head ∧ d.frames = [] ∧ d.sentHead = none ∧ d.sentData = []
  | .receiving =>
    ∃ head, d.Relaying head ∧ ∀ rest, d.sentData.flatten ++ toSend d.coder rest = cfg.body head (d.frames ++ rest)
  | .sendingData chunk =>
    ∃ head, d.Relaying head ∧
      ∀ rest, d.sentData.flatten ++ (chunk ++ toSend d.coder rest) = cfg.body head (d.frames ++ rest)
  | .sendingTail tail =>
    ∃ head, d.Relaying head ∧ d.ended = true ∧ d.sentData.flatten ++ tail = cfg.body head d.frames
  | .finishing => ∃ head, d.Whole head
  | .returned => d.TimedOut ∨ ∃ head, d.Whole head
  | .failed => d.Sent
  | .panicked => ∃ head, d.Whole head

/-- What is kept to be stored, and what is stored of it once the stream is finished. -/
structure Keeps (d : Download cfg.encoder) : Prop where
  store : d.cacheStore = d.head.bind cfg.cacheStore
  buf : d.cacheStore.isSome = true → d.cacheBuf = gathered (accumulate cfg.maxBody [] d.frames)
  finished : d.finished = true → d.pc = .returned ∨ d.pc = .panicked
  stored : ∀ p, d.stored = some p ↔ d.finished = true ∧ ∃ r, d.head.bind cfg.cacheStore = some r ∧
    r.stored cfg.maxBody d.finishedAt [] d.frames = some p

variable {d e : Download cfg.encoder}

theorem Whole.sent_of {head : ResponseHead} (h : d.Whole head) : d.Sent :=
  .inr (.inr ⟨head, h.relaying, [], (List.append_nil _).trans h.sent⟩)

/-- **At every point the client has been sent the start of an answer.** -/
theorem Shows.sent (h : d.Shows) : d.Sent := by
  unfold Shows at h
  cases hpc : d.pc with
  | requesting =>
    rw [hpc] at h
    exact .inl h.2.2.2
  | sendingTimeout =>
    rw [hpc] at h
    exact .inl h.2.2
  | finishingTimeout =>
    rw [hpc] at h
    exact .inr (.inl h)
  | sendingHead head =>
    rw [hpc] at h
    exact .inl h.2.2
  | receiving =>
    rw [hpc] at h
    obtain ⟨head, hrelaying, hbody⟩ := h
    have hnow := hbody []
    rw [List.append_nil] at hnow
    exact .inr (.inr ⟨head, hrelaying, _, hnow⟩)
  | sendingData chunk =>
    rw [hpc] at h
    obtain ⟨head, hrelaying, hbody⟩ := h
    have hnow := hbody []
    rw [List.append_nil] at hnow
    exact .inr (.inr ⟨head, hrelaying, _, hnow⟩)
  | sendingTail tail =>
    rw [hpc] at h
    obtain ⟨head, hrelaying, -, hbody⟩ := h
    exact .inr (.inr ⟨head, hrelaying, _, hbody⟩)
  | finishing | panicked =>
    rw [hpc] at h
    obtain ⟨head, hwhole⟩ := h
    exact hwhole.sent_of
  | returned =>
    rw [hpc] at h
    obtain htimeout | ⟨head, hwhole⟩ := h
    · exact .inr (.inl htimeout)
    · exact hwhole.sent_of
  | failed =>
    rw [hpc] at h
    exact h

theorem Shows.receiving (h : d.Shows) (hpc : d.pc = .receiving) : ∃ head, d.Relaying head ∧
    ∀ rest, d.sentData.flatten ++ toSend d.coder rest = cfg.body head (d.frames ++ rest) := by
  unfold Shows at h
  rw [hpc] at h
  exact h

/-- A task that fails has sent what it had. -/
theorem Sent.failed (h : d.Sent) : ({ d with pc := .failed } : Download cfg.encoder).Sent := by
  rcases h with hnone | htimeout | ⟨head, hrelaying, hprefix⟩
  · exact .inl hnone
  · exact .inr (.inl ⟨htimeout.limited, htimeout.unanswered, htimeout.sentHead, htimeout.sentData⟩)
  · exact .inr (.inr ⟨head, ⟨hrelaying.answered, hrelaying.sentHead⟩, hprefix⟩)

/-! ### The steps of the request's task -/

theorem start_shows : (start cfg).Shows := ⟨rfl, rfl, rfl, rfl, rfl⟩

theorem start_keeps : (start cfg).Keeps where
  store := rfl
  buf := fun h => by cases h
  finished := fun h => by cases h
  stored := fun p => iff_of_false (fun h => by cases h) (fun h => by cases h.1)

theorem Keeps.open_of (h : d.Keeps) {pc : RelayPc} (hpc : d.pc = pc) (hreturned : pc ≠ .returned)
    (hpanicked : pc ≠ .panicked) : d.finished = false := by
  rw [← Bool.not_eq_true]
  rintro hfinished
  rcases h.finished hfinished with hdone | hdone
  · exact hreturned (hpc.symm.trans hdone)
  · exact hpanicked (hpc.symm.trans hdone)

theorem Keeps.stored_none (h : d.Keeps) (hopen : d.finished = false) : d.stored = none := by
  rw [Option.eq_none_iff_forall_ne_some]
  intro p hp
  rw [((h.stored p).1 hp).1] at hopen
  cases hopen

/-- A step that stores nothing keeps what is to be stored. -/
theorem Keeps.congr (h : d.Keeps) (hopen : d.finished = false) (hstore : e.cacheStore = d.cacheStore)
    (hbuf : e.cacheBuf = d.cacheBuf) (hhead : e.head = d.head) (hframes : e.frames = d.frames)
    (hfinished : e.finished = d.finished) (hstored : e.stored = d.stored) : e.Keeps := by
  refine ⟨by rw [hstore, hhead, h.store], fun hactive => ?_, fun hdone => ?_, fun p => ?_⟩
  · rw [hbuf, hframes]
    exact h.buf (hstore ▸ hactive)
  · rw [hfinished, hopen] at hdone
    cases hdone
  · rw [hstored, h.stored_none hopen, hfinished, hopen]
    exact iff_of_false (fun hp => by cases hp) (fun hp => by cases hp.1)

/-- **A chunk goes behind what was gathered.** -/
theorem gather_data (max : Nat) (frames : List Bytes) (bytes : Bytes) :
    accumulateCacheBody true (gathered (accumulate max [] frames)) bytes max =
      gathered (accumulate max [] (frames ++ [bytes])) := by
  rw [accumulate_eq frames (Nat.zero_le max), accumulate_eq (frames ++ [bytes]) (Nat.zero_le max)]
  simp only [List.nil_append, List.flatten_append, List.flatten_singleton, List.length_append]
  by_cases hfits : frames.flatten.length ≤ max
  · rw [if_pos hfits]
    show (if frames.flatten.length + bytes.length > max then ([], true) else (frames.flatten ++ bytes, false)) = _
    by_cases hover : frames.flatten.length + bytes.length > max
    · rw [if_pos hover, if_neg (by omega)]
      rfl
    · rw [if_neg hover, if_pos (by omega)]
      rfl
  · rw [if_neg hfits, if_neg (by omega)]
    rfl

theorem onData_shows (h : d.Shows) (hpc : d.pc = .receiving) (bytes : Bytes) : (d.onData bytes).Shows := by
  obtain ⟨head, hrelaying, hbody⟩ := h.receiving hpc
  have hnext : ∀ rest, d.sentData.flatten ++ toSend d.coder (bytes :: rest) =
      cfg.body head (d.frames ++ [bytes] ++ rest) := by
    intro rest
    rw [hbody, List.append_assoc, List.singleton_append]
  unfold onData
  cases hcoder : d.coder with
  | some state =>
    have hpushed : ∀ rest, d.sentData.flatten ++ ((cfg.encoder.push state bytes).1 ++
        toSend (some (cfg.encoder.push state bytes).2) rest) = cfg.body head (d.frames ++ [bytes] ++ rest) := by
      intro rest
      rw [← hnext, hcoder]
      rfl
    by_cases hnone : (cfg.encoder.push state bytes).1.isEmpty = true
    · simp only [hnone, if_true]
      rw [List.isEmpty_iff.1 hnone] at hpushed
      exact ⟨head, ⟨hrelaying.answered, hrelaying.sentHead⟩, hpushed⟩
    · simp only [hnone]
      exact ⟨head, ⟨hrelaying.answered, hrelaying.sentHead⟩, hpushed⟩
  | none =>
    refine ⟨head, ⟨hrelaying.answered, hrelaying.sentHead⟩, fun rest => ?_⟩
    show d.sentData.flatten ++ (bytes ++ toSend none rest) = cfg.body head (d.frames ++ [bytes] ++ rest)
    rw [← hnext, hcoder]
    rfl

theorem onData_keeps (h : d.Keeps) (hopen : d.finished = false) (bytes : Bytes) : (d.onData bytes).Keeps := by
  have hkept : (d.onData bytes).cacheStore = d.cacheStore ∧ (d.onData bytes).head = d.head ∧
      (d.onData bytes).frames = d.frames ++ [bytes] ∧ (d.onData bytes).finished = d.finished ∧
      (d.onData bytes).stored = d.stored ∧
      (d.onData bytes).cacheBuf = accumulateCacheBody d.cacheStore.isSome d.cacheBuf bytes cfg.maxBody := by
    unfold onData
    cases d.coder <;> exact ⟨rfl, rfl, rfl, rfl, rfl, rfl⟩
  obtain ⟨hstore, hhead, hframes, hfinished, hstored, hbuf⟩ := hkept
  refine ⟨by rw [hstore, hhead, h.store], fun hactive => ?_, fun hdone => ?_, fun p => ?_⟩
  · rw [hstore] at hactive
    rw [hbuf, hframes, hactive, h.buf hactive, gather_data]
  · rw [hfinished, hopen] at hdone
    cases hdone
  · rw [hstored, h.stored_none hopen, hfinished, hopen]
    exact iff_of_false (fun hp => by cases hp) (fun hp => by cases hp.1)

theorem onEnd_shows (h : d.Shows) (hpc : d.pc = .receiving) : d.onEnd.Shows := by
  obtain ⟨head, hrelaying, hbody⟩ := h.receiving hpc
  have hnow := hbody []
  rw [List.append_nil] at hnow
  unfold onEnd
  cases hcoder : d.coder with
  | some state =>
    rw [hcoder] at hnow
    by_cases hnone : (cfg.encoder.finish state).isEmpty = true
    · simp only [hnone, if_true]
      refine ⟨head, ⟨hrelaying.answered, hrelaying.sentHead⟩, rfl, ?_⟩
      show d.sentData.flatten = _
      rw [← hnow]
      show _ = d.sentData.flatten ++ cfg.encoder.finish state
      rw [List.isEmpty_iff.1 hnone, List.append_nil]
    · simp only [hnone]
      exact ⟨head, ⟨hrelaying.answered, hrelaying.sentHead⟩, rfl, hnow⟩
  | none =>
    rw [hcoder] at hnow
    refine ⟨head, ⟨hrelaying.answered, hrelaying.sentHead⟩, rfl, ?_⟩
    exact (List.append_nil _).symm.trans hnow

theorem onEnd_kept : d.onEnd.cacheStore = d.cacheStore ∧ d.onEnd.cacheBuf = d.cacheBuf ∧ d.onEnd.head = d.head ∧
    d.onEnd.frames = d.frames ∧ d.onEnd.finished = d.finished ∧ d.onEnd.stored = d.stored := by
  unfold onEnd
  cases d.coder <;> exact ⟨rfl, rfl, rfl, rfl, rfl, rfl⟩

theorem onFinished_cases (d : Download cfg.encoder) (now : SystemTime) :
    ((d.onFinished now).pc = .returned ∨ (d.onFinished now).pc = .panicked) ∧
      (d.onFinished now).head = d.head ∧ (d.onFinished now).ended = d.ended ∧ (d.onFinished now).frames = d.frames ∧
      (d.onFinished now).sentHead = d.sentHead ∧ (d.onFinished now).sentData = d.sentData ∧
      (d.onFinished now).cacheStore = d.cacheStore ∧ (d.onFinished now).cacheBuf = d.cacheBuf ∧
      (d.onFinished now).finished = true ∧ (d.onFinished now).finishedAt = now := by
  unfold onFinished
  simp only
  split
  · split
    · exact ⟨.inl rfl, rfl, rfl, rfl, rfl, rfl, rfl, rfl, rfl, rfl⟩
    · split
      · exact ⟨.inl rfl, rfl, rfl, rfl, rfl, rfl, rfl, rfl, rfl, rfl⟩
      · exact ⟨.inr rfl, rfl, rfl, rfl, rfl, rfl, rfl, rfl, rfl, rfl⟩
  · exact ⟨.inl rfl, rfl, rfl, rfl, rfl, rfl, rfl, rfl, rfl, rfl⟩

theorem onFinished_shows (h : ∃ head, d.Whole head) (now : SystemTime) : (d.onFinished now).Shows := by
  obtain ⟨hpc, hhead, hended, hframes, hsentHead, hsentData, -⟩ := d.onFinished_cases now
  have hwhole : ∃ head, (d.onFinished now).Whole head := by
    obtain ⟨head, hrelaying, hend, hsent⟩ := h
    exact ⟨head, ⟨hhead.trans hrelaying.answered, hsentHead.trans hrelaying.sentHead⟩, hended.trans hend,
      by rw [hsentData, hframes, hsent]⟩
  unfold Shows
  rcases hpc with hpc | hpc
  · rw [hpc]
    exact .inr hwhole
  · rw [hpc]
    exact hwhole

/-- **What a finished stream stores is what its chunks come to.** -/
theorem onFinished_stored (h : d.Keeps) (hopen : d.finished = false) (now : SystemTime) :
    (d.onFinished now).stored = d.cacheStore.bind (fun r => r.stored cfg.maxBody now [] d.frames) := by
  have hnone := h.stored_none hopen
  unfold onFinished
  cases hstore : d.cacheStore with
  | none => exact hnone
  | some r =>
    have hbuf := h.buf (by rw [hstore]; rfl)
    show _ = (accumulate cfg.maxBody [] d.frames).bind (fun body =>
      ProxyConfig.storeUntil r.key now r.ttl ⟨r.status, r.headers, body⟩)
    rw [hbuf]
    cases accumulate cfg.maxBody [] d.frames with
    | none => exact hnone
    | some body =>
      rw [Option.bind_some]
      unfold ProxyConfig.storeUntil
      simp only [gathered, Bool.false_eq_true, if_false]
      cases now.add r.ttl with
      | ok expiry => rfl
      | error _ => exact hnone

theorem onFinished_keeps (h : d.Keeps) (hopen : d.finished = false) (now : SystemTime) :
    (d.onFinished now).Keeps := by
  obtain ⟨hpc, hhead, -, hframes, -, -, hstore, hbuf, hfinished, hat⟩ := d.onFinished_cases now
  refine ⟨by rw [hstore, hhead, h.store], fun hactive => ?_, fun _ => hpc, fun p => ?_⟩
  · rw [hbuf, hframes]
    exact h.buf (hstore ▸ hactive)
  · rw [onFinished_stored h hopen, hfinished, hhead, hframes, hat, h.store, Option.bind_eq_some_iff]
    exact (and_iff_right rfl).symm

/-- **A step of the request's task keeps what was sent a start of the answer.** -/
theorem next_shows (h : d.Shows) {ev : DownloadEvent} (hnext : d.next ev = some e) : e.Shows := by
  cases ev with
  | responds head =>
    simp only [next] at hnext
    split at hnext
    · rename_i hpc
      unfold Shows at h
      rw [hpc] at h
      obtain ⟨-, hframes, -, hsentHead, hsentData⟩ := h
      rw [← Option.some.inj hnext]
      exact ⟨rfl, hframes, hsentHead, hsentData⟩
    · cases hnext
  | timesOut =>
    simp only [next] at hnext
    split at hnext
    · rename_i hpc
      unfold Shows at h
      rw [hpc] at h
      obtain ⟨hhead, -, -, hsentHead, hsentData⟩ := h
      split at hnext
      · rename_i hlimited
        rw [← Option.some.inj hnext]
        exact ⟨hlimited, hhead, hsentHead, hsentData⟩
      · cases hnext
    · cases hnext
  | data bytes =>
    simp only [next] at hnext
    split at hnext
    · rename_i hpc
      rw [← Option.some.inj hnext]
      exact onData_shows h hpc bytes
    · cases hnext
  | trailers =>
    simp only [next] at hnext
    split at hnext
    · rw [← Option.some.inj hnext]
      exact h
    · cases hnext
  | ends =>
    simp only [next] at hnext
    split at hnext
    · rename_i hpc
      rw [← Option.some.inj hnext]
      exact onEnd_shows h hpc
    · cases hnext
  | written now =>
    simp only [next, onWritten] at hnext
    unfold Shows at h
    split at hnext
    · rename_i hpc
      rw [hpc] at h
      obtain ⟨hlimited, hhead, -, hsentData⟩ := h
      rw [← Option.some.inj hnext]
      exact ⟨hlimited, hhead, rfl, hsentData⟩
    · rename_i hpc
      rw [hpc] at h
      rw [← Option.some.inj hnext]
      exact .inl ⟨h.limited, h.unanswered, h.sentHead, h.sentData⟩
    · rename_i head hpc
      rw [hpc] at h
      obtain ⟨hhead, hframes, -, hsentData⟩ := h
      rw [← Option.some.inj hnext]
      refine ⟨head, ⟨hhead, rfl⟩, fun rest => ?_⟩
      show d.sentData.flatten ++ toSend ((cfg.encoding head).map cfg.encoder.new) rest =
        cfg.body head (d.frames ++ rest)
      rw [hsentData, hframes, cfg.body_eq_toSend]
      rfl
    · rename_i chunk hpc
      rw [hpc] at h
      obtain ⟨head, hrelaying, hbody⟩ := h
      rw [← Option.some.inj hnext]
      refine ⟨head, ⟨hrelaying.answered, hrelaying.sentHead⟩, fun rest => ?_⟩
      show (d.sentData ++ [chunk]).flatten ++ toSend d.coder rest = cfg.body head (d.frames ++ rest)
      rw [List.flatten_append, List.flatten_singleton, List.append_assoc]
      exact hbody rest
    · rename_i tail hpc
      rw [hpc] at h
      obtain ⟨head, hrelaying, hended, hbody⟩ := h
      rw [← Option.some.inj hnext]
      refine ⟨head, ⟨hrelaying.answered, hrelaying.sentHead⟩, hended, ?_⟩
      show (d.sentData ++ [tail]).flatten = cfg.body head d.frames
      rw [List.flatten_append, List.flatten_singleton]
      exact hbody
    · rename_i hpc
      rw [hpc] at h
      rw [← Option.some.inj hnext]
      exact onFinished_shows h now
    · cases hnext
  | fails =>
    simp only [next] at hnext
    split at hnext
    · cases hnext
    · rw [← Option.some.inj hnext]
      exact h.sent.failed

/-- **A step of the request's task stores nothing before the stream is finished.** -/
theorem next_keeps (h : d.Keeps) (hshows : d.Shows) {ev : DownloadEvent} (hnext : d.next ev = some e) : e.Keeps := by
  cases ev with
  | responds head =>
    simp only [next] at hnext
    split at hnext
    · rename_i hpc
      unfold Shows at hshows
      rw [hpc] at hshows
      obtain ⟨-, hframes, hbuf, -, -⟩ := hshows
      have hrun := h.open_of hpc (by simp) (by simp)
      have hnone := h.stored_none hrun
      rw [← Option.some.inj hnext]
      refine ⟨rfl, fun _ => ?_, fun hdone => ?_, fun p => ?_⟩
      · show d.cacheBuf = gathered (accumulate cfg.maxBody [] d.frames)
        rw [hbuf, hframes]
        rfl
      · exact absurd (hdone.symm.trans hrun) (by simp)
      · exact iff_of_false (fun hp => by cases hnone.symm.trans hp) (fun hp => by cases hrun.symm.trans hp.1)
    · cases hnext
  | timesOut =>
    simp only [next] at hnext
    split at hnext
    · rename_i hpc
      split at hnext
      · rw [← Option.some.inj hnext]
        exact h.congr (h.open_of hpc (by simp) (by simp)) rfl rfl rfl rfl rfl rfl
      · cases hnext
    · cases hnext
  | data bytes =>
    simp only [next] at hnext
    split at hnext
    · rename_i hpc
      rw [← Option.some.inj hnext]
      exact onData_keeps h (h.open_of hpc (by simp) (by simp)) bytes
    · cases hnext
  | trailers =>
    simp only [next] at hnext
    split at hnext
    · rw [← Option.some.inj hnext]
      exact h
    · cases hnext
  | ends =>
    simp only [next] at hnext
    split at hnext
    · rename_i hpc
      rw [← Option.some.inj hnext]
      obtain ⟨hstore, hbuf, hhead, hframes, hfinished, hstored⟩ := d.onEnd_kept
      exact h.congr (h.open_of hpc (by simp) (by simp)) hstore hbuf hhead hframes hfinished hstored
    · cases hnext
  | written now =>
    simp only [next, onWritten] at hnext
    split at hnext
    · rename_i hpc
      rw [← Option.some.inj hnext]
      exact h.congr (h.open_of hpc (by simp) (by simp)) rfl rfl rfl rfl rfl rfl
    · rename_i hpc
      have hrun := h.open_of hpc (by simp) (by simp)
      have hnone := h.stored_none hrun
      unfold Shows at hshows
      rw [hpc] at hshows
      rw [← Option.some.inj hnext]
      refine ⟨h.store, h.buf, fun _ => .inl rfl, fun p => iff_of_false (fun hp => by cases hnone.symm.trans hp) ?_⟩
      rintro ⟨-, r, hr, -⟩
      have hr' : d.head.bind cfg.cacheStore = some r := hr
      rw [hshows.unanswered] at hr'
      cases hr'
    · rename_i head hpc
      rw [← Option.some.inj hnext]
      exact h.congr (h.open_of hpc (by simp) (by simp)) rfl rfl rfl rfl rfl rfl
    · rename_i chunk hpc
      rw [← Option.some.inj hnext]
      exact h.congr (h.open_of hpc (by simp) (by simp)) rfl rfl rfl rfl rfl rfl
    · rename_i tail hpc
      rw [← Option.some.inj hnext]
      exact h.congr (h.open_of hpc (by simp) (by simp)) rfl rfl rfl rfl rfl rfl
    · rename_i hpc
      rw [← Option.some.inj hnext]
      exact onFinished_keeps h (h.open_of hpc (by simp) (by simp)) now
    · cases hnext
  | fails =>
    simp only [next] at hnext
    split at hnext
    · cases hnext
    · rename_i hrun
      have hopen : d.finished = false := by
        refine h.open_of rfl (fun hpc => ?_) (fun hpc => ?_)
        · exact hrun (by unfold hasEnded; rw [hpc])
        · exact hrun (by unfold hasEnded; rw [hpc])
      rw [← Option.some.inj hnext]
      exact h.congr hopen rfl rfl rfl rfl rfl rfl

end Download

/-! ## Whole runs -/

theorem Streams.download_shows {cfg : StreamConfig} {s : ClientStream} {es : List StreamEvent} {t : Streams cfg}
    (hrun : Runs.Run Streams.Step (Streams.start cfg s) es t) : t.download.Shows ∧ t.download.Keeps := by
  refine hrun.invariant (P := fun t => t.download.Shows ∧ t.download.Keeps) (fun a ev b h hstep => ?_)
    ⟨Download.start_shows, Download.start_keeps⟩
  unfold Streams.Step Streams.next at hstep
  cases ev with
  | up ev =>
    obtain ⟨u, -, rfl⟩ := Option.map_eq_some_iff.1 hstep
    exact h
  | down ev =>
    obtain ⟨d, hnext, rfl⟩ := Option.map_eq_some_iff.1 hstep
    exact ⟨Download.next_shows h.1 hnext, Download.next_keeps h.2 h.1 hnext⟩

/-! ## What the client reads -/

/-- What a body is read as by its head: decoded where the head names a coding. -/
def readBody (decode : Str → Bytes → Option Bytes) (headers : HeaderMap) (body : Bytes) : Option Bytes :=
  match headers.getStr HeaderName.contentEncoding with
  | some coding => decode coding body
  | none => some body

end Http3

/-- The decoder gives back what the encoder was given, in each coding that is negotiated. -/
def BodyEncoder.DecodedBy (encoder : BodyEncoder) (decode : Str → Bytes → Option Bytes) : Prop :=
  ∀ coding ∈ ["br".toList, "zstd".toList, "gzip".toList], ∀ chunks,
    decode coding (encoder.run (encoder.new coding) chunks) = some chunks.flatten

namespace Http3

section

variable {cfg : StreamConfig} {decode : Str → Bytes → Option Bytes} {head : ResponseHead}

theorem encoding_mem {coding : Str} (h : cfg.encoding head = some coding) :
    coding ∈ ["br".toList, "zstd".toList, "gzip".toList] ∧
      (cfg.parts head).headers.containsKey HeaderName.contentEncoding = false := by
  unfold StreamConfig.encoding encoding at h
  split at h
  · rename_i hcompresses
    rw [Bool.and_eq_true, Bool.not_eq_true'] at hcompresses
    unfold negotiateEncoding at h
    obtain ⟨accepted, -, hfound⟩ := Option.bind_eq_some_iff.1 h
    exact ⟨List.mem_of_find?_eq_some hfound, hcompresses.2⟩
  · cases h

/-- The head that goes with an encoded body names the coding and no length. -/
theorem relay_of_encoded {coding : Str} (h : cfg.encoding head = some coding) :
    (relay cfg.heads cfg.req cfg.matched head).headers.getStr HeaderName.contentEncoding = some coding ∧
      (relay cfg.heads cfg.req cfg.matched head).headers.containsKey HeaderName.contentLength = false := by
  have hrelay : (relay cfg.heads cfg.req cfg.matched head).headers =
      (insertHeader (cfg.parts head).headers ("content-encoding".toList, coding)).remove HeaderName.contentLength := by
    unfold relay
    have hcoding : encoding cfg.heads cfg.req (relayed cfg.matched head) = some coding := h
    simp only [hcoding]
    rfl
  have hline : ∀ c ∈ ["br".toList, "zstd".toList, "gzip".toList], ∃ value,
      HeaderName.parse "content-encoding".toList = some HeaderName.contentEncoding ∧
        HeaderValue.ofStr c = some value ∧ value.toStr = some c := by
    intro c hc
    rcases List.mem_cons.1 hc with rfl | hc
    · exact ⟨_, by decide, rfl, by decide⟩
    · rcases List.mem_cons.1 hc with rfl | hc
      · exact ⟨_, by decide, rfl, by decide⟩
      · rw [List.mem_singleton.1 hc]
        exact ⟨_, by decide, rfl, by decide⟩
  obtain ⟨value, hname, hvalue, htext⟩ := hline coding (encoding_mem h).1
  rw [hrelay]
  constructor
  · rw [HeaderMap.getStr, HeaderMap.get_eq_head?, HeaderMap.values_remove_ne _ (by decide)]
    unfold insertHeader
    simp only [hname, hvalue]
    rw [HeaderMap.values_insert_self]
    exact htext
  · rw [Bool.eq_false_iff, Ne, HeaderMap.containsKey_iff_values, HeaderMap.values_remove_self]
    exact fun hne => hne rfl

/-- **Relaying keeps what the body is read as**, and names no other length. -/
theorem readBody_relay (hdecode : cfg.encoder.DecodedBy decode) (head : ResponseHead) (chunks : List Bytes) :
    readBody decode (relay cfg.heads cfg.req cfg.matched head).headers (cfg.body head chunks) =
        readBody decode (cfg.parts head).headers chunks.flatten ∧
      ((relay cfg.heads cfg.req cfg.matched head).headers.containsKey HeaderName.contentLength = true →
        cfg.body head chunks = chunks.flatten) := by
  have hbody := cfg.body_eq_toSend head chunks
  cases hcoding : cfg.encoding head with
  | none =>
    rw [hcoding] at hbody
    have hrelay : relay cfg.heads cfg.req cfg.matched head = cfg.parts head := by
      unfold relay
      have hnone : encoding cfg.heads cfg.req (relayed cfg.matched head) = none := hcoding
      simp only [hnone]
      rfl
    rw [hrelay, hbody]
    exact ⟨rfl, fun _ => rfl⟩
  | some coding =>
    rw [hcoding] at hbody
    obtain ⟨hmem, hunset⟩ := encoding_mem hcoding
    obtain ⟨hnamed, hlength⟩ := relay_of_encoded hcoding
    have hplain : (cfg.parts head).headers.getStr HeaderName.contentEncoding = none := by
      rw [← Bool.not_eq_true, HeaderMap.containsKey_iff_get, Option.not_isSome_iff_eq_none] at hunset
      rw [HeaderMap.getStr, hunset]
      rfl
    constructor
    · unfold readBody
      rw [hnamed, hplain, hbody]
      exact hdecode coding hmem chunks
    · intro hset
      rw [hlength] at hset
      cases hset

end

/-- What the client has been sent: nothing, that the upstream did not answer in time, or the start of what is relayed;
and once the stream is finished behind the upstream's head, a body that reads as the upstream's. -/
structure ReadsAsUpstream {cfg : StreamConfig} (decode : Str → Bytes → Option Bytes) (d : Download cfg.encoder) :
    Prop where
  sent : d.Sent
  finished : d.finished = true → d.TimedOut ∨ ∃ head sent, d.head = some head ∧ d.ended = true ∧
    d.sentHead = some sent ∧
    readBody decode sent.headers d.sentData.flatten = readBody decode (cfg.parts head).headers d.frames.flatten ∧
    (sent.headers.containsKey HeaderName.contentLength = true → d.sentData.flatten = d.frames.flatten)

/-- **A client whose stream is finished behind the upstream's head reads the upstream's body**: by the head it was sent,
its body reads as the upstream's whole body does by the upstream's head with the route's headers in place. -/
theorem finished_stream_relayed {cfg : StreamConfig} {decode : Str → Bytes → Option Bytes}
    (hdecode : cfg.encoder.DecodedBy decode) {s : ClientStream} {es : List StreamEvent} {t : Streams cfg}
    (hrun : Runs.Run Streams.Step (Streams.start cfg s) es t) : ReadsAsUpstream decode t.download := by
  obtain ⟨hshows, hkeeps⟩ := Streams.download_shows hrun
  refine ⟨hshows.sent, fun hfinished => ?_⟩
  have hdone : t.download.TimedOut ∨ ∃ head, t.download.Whole head := by
    unfold Download.Shows at hshows
    rcases hkeeps.finished hfinished with hpc | hpc
    · rw [hpc] at hshows
      exact hshows
    · rw [hpc] at hshows
      exact .inr hshows
  rcases hdone with htimeout | ⟨head, hrelaying, hended, hsent⟩
  · exact .inl htimeout
  · obtain ⟨hread, hlength⟩ := readBody_relay hdecode head t.download.frames
    exact .inr ⟨head, _, hrelaying.answered, hended, hrelaying.sentHead, by rw [hsent]; exact hread,
      fun hset => by rw [hsent]; exact hlength hset⟩

theorem identityEncoder_decodedBy : identityEncoder.DecodedBy (fun _ body => some body) := by
  intro coding _ chunks
  have hrun : ∀ chunks : List Bytes, identityEncoder.run () chunks = chunks.flatten := by
    intro chunks
    induction chunks with
    | nil => rfl
    | cons chunk chunks ih =>
      show chunk ++ identityEncoder.run () chunks = _
      rw [ih, List.flatten_cons]
  exact congrArg some (hrun chunks)

theorem page_read : ∃ t, pageEvents.foldlM Streams.next (Streams.start pageStream fiveBytes) = some t ∧
    t.download.finished = true ∧ t.download.sentData = [[104, 105]] ∧
    ReadsAsUpstream (fun _ body => some body) t.download := by
  obtain ⟨t, hrun, -, hfinished, hdata, -⟩ := pageEvents_run
  exact ⟨t, hrun, hfinished, hdata, finished_stream_relayed identityEncoder_decodedBy (Runs.run_of_foldlM hrun)⟩

/-- **What is stored of a stream is what the cache model stores of its fetch**, with the upstream's whole body, and
nothing before the stream is finished. -/
theorem streams_refine_fetch {cfg : StreamConfig} {s : ClientStream} {es : List StreamEvent} {t : Streams cfg}
    (hrun : Runs.Run Streams.Step (Streams.start cfg s) es t) {proxy : ProxyConfig}
    (hlimit : proxy.maxBody = cfg.maxBody) {route : Route} (hroute : cfg.matched = some route) (p : Store) :
    t.download.stored = some p ↔ t.download.finished = true ∧ ∃ key head, cfg.cacheKey = some key ∧
      t.download.head = some head ∧
      (proxy.outcome head t.download.frames t.download.finishedAt (.fetching .http3 cfg.req key route)).1 = some p := by
  obtain ⟨-, hkeeps⟩ := Streams.download_shows hrun
  have hfetch : ∀ key head, (proxy.outcome head t.download.frames t.download.finishedAt
      (.fetching .http3 cfg.req key route)).1 = ((upstreamTtl (cfg.parts head)).map (fun ttl =>
        (⟨key, ttl, head.status, storedHeaders (cfg.parts head).headers⟩ : AcceptedResponse))).bind
          (fun r => r.stored cfg.maxBody t.download.finishedAt [] t.download.frames) := by
    intro key head
    have hparts : cfg.parts head = relayHead route head := by
      rw [StreamConfig.parts, hroute, relayed_some]
    show (upstreamTtl (relayHead route head)).bind (fun ttl =>
      (accumulate proxy.maxBody [] t.download.frames).bind (fun body =>
        ProxyConfig.storeUntil key t.download.finishedAt ttl
          ⟨(relayHead route head).status, storedHeaders (relayHead route head).headers, body⟩)) = _
    rw [hparts, hlimit]
    cases upstreamTtl (relayHead route head) <;> rfl
  rw [hkeeps.stored p]
  constructor
  · rintro ⟨hfinished, r, hr, hstored⟩
    obtain ⟨head, hhead, hstore⟩ := Option.bind_eq_some_iff.1 hr
    obtain ⟨key, hkey, haccepted⟩ := Option.bind_eq_some_iff.1 hstore
    refine ⟨hfinished, key, head, hkey, hhead, ?_⟩
    rw [hfetch, haccepted]
    exact hstored
  · rintro ⟨hfinished, key, head, hkey, hhead, hstored⟩
    rw [hfetch] at hstored
    obtain ⟨r, hr, hstored⟩ := Option.bind_eq_some_iff.1 hstored
    refine ⟨hfinished, r, ?_, hstored⟩
    rw [hhead]
    show cfg.cacheStore head = some r
    rw [StreamConfig.cacheStore, hkey]
    exact hr

theorem page_stored : ∃ t p, pageEvents.foldlM Streams.next (Streams.start pageStream fiveBytes) = some t ∧
    t.download.stored = some p ∧ t.download.finished = true ∧ ∃ key head, pageStream.cacheKey = some key ∧
      t.download.head = some head ∧
      ({ oneUpstream with maxBody := 65536 }.outcome head t.download.frames t.download.finishedAt
        (.fetching .http3 pageStream.req key pageRoute)).1 = some p := by
  obtain ⟨t, hrun, -, -, -, hstored⟩ := pageEvents_run
  obtain ⟨p, hp⟩ := Option.isSome_iff_exists.1 hstored
  exact ⟨t, p, hrun, hp, (streams_refine_fetch (Runs.run_of_foldlM hrun) rfl rfl p).1 hp⟩

end Http3

end Zaphyl
