import Zaphyl.BodyBound
import Zaphyl.Http3Streams
/-!
# Http3Upload — what the upstream is sent of a client's stream

What the forwarder has sent and what it has yet to send make up the chunks that fit the limit, as long as the upstream
takes them.  So the upstream sees the end of the body behind all of them, and the proxy holds five chunks at most
(`upload_of_run`).
-/
namespace Zaphyl

open Mpsc

namespace Http3

/-! ## What the upstream is sent -/

theorem forwardBody_sent (maxBody : Option Nat) (n m : Nat) : ∀ (s : ClientStream) (seen : Nat),
    forwardBody maxBody none seen n s = forwardBody maxBody none seen m s
  | .finished, _ => rfl
  | .failed, _ => rfl
  | .chunk bytes rest, seen => by
    simp only [forwardBody]
    rw [forwardBody_sent maxBody (n + 1) (m + 1) rest]
    simp

namespace Upload

/-- What the forwarder has yet to send. -/
def pending (maxBody : Option Nat) (u : Upload) : List Bytes :=
  match u.forwarder with
  | .receiving => forwardBody maxBody none u.seen 0 u.rest
  | .sending bytes => bytes :: forwardBody maxBody none u.seen 0 u.rest
  | .ended => []

/-- The chunks that the forwarder may hold. -/
def inHand (u : Upload) : Nat := if u.forwarder = .receiving then 0 else 1

/-- What was sent and what is yet to be sent of a client's stream make up the chunks that fit, unless the upstream has
dropped the receiver. -/
structure Forwards (maxBody : Option Nat) (s : ClientStream) (u : Upload) : Prop where
  sent : ∃ lost, u.channel.sent ++ (u.pending maxBody ++ lost) = forwardBody maxBody none 0 0 s ∧
    (u.channel.receiverAlive = true → lost = [])
  sender : u.channel.senderAlive = false → u.forwarder = .ended
  held : s.chunks.length ≤ u.rest.chunks.length + (u.channel.sent.length + u.inHand)
  ended : u.bodyEnded = true →
    u.forwarder = .ended ∧ u.channel.waiting = [] ∧ u.channel.sent = forwardBody maxBody none 0 0 s

variable {maxBody : Option Nat} {s : ClientStream} {u v : Upload}

theorem start_forwards (maxBody : Option Nat) (s : ClientStream) : (start s).Forwards maxBody s where
  sent := ⟨[], List.append_nil _, fun _ => rfl⟩
  sender := fun h => by cases h
  held := Nat.le_add_right _ _
  ended := fun h => by cases h

theorem not_ended_of_receiving (hpc : u.forwarder = .receiving) : u.forwarder ≠ .ended := by
  rw [hpc]
  exact fun hended => by cases hended

theorem not_ended_of_sending {bytes : Bytes} (hpc : u.forwarder = .sending bytes) : u.forwarder ≠ .ended := by
  rw [hpc]
  exact fun hended => by cases hended

theorem Forwards.held_receiving (h : u.Forwards maxBody s) (hpc : u.forwarder = .receiving) :
    s.chunks.length ≤ u.rest.chunks.length + u.channel.sent.length := by
  have hheld := h.held
  unfold inHand at hheld
  rw [if_pos hpc] at hheld
  exact hheld

theorem Forwards.held_sending (h : u.Forwards maxBody s) {bytes : Bytes} (hpc : u.forwarder = .sending bytes) :
    s.chunks.length ≤ u.rest.chunks.length + (u.channel.sent.length + 1) := by
  have hheld := h.held
  unfold inHand at hheld
  rw [if_neg (by rw [hpc]; exact fun hreceiving => by cases hreceiving)] at hheld
  exact hheld

/-- The forwarder has sent all it will of a body that ends here. -/
theorem stop_forwards (h : u.Forwards maxBody s) (hrun : u.forwarder ≠ .ended) {rest : ClientStream} {seen : Nat}
    (hsent : u.channel.receiverAlive = true → u.pending maxBody = [])
    (hheld : s.chunks.length ≤ rest.chunks.length + (u.channel.sent.length + 1)) :
    ({ u with rest := rest, seen := seen } : Upload).stop.Forwards maxBody s := by
  obtain ⟨lost, hwhole, hlost⟩ := h.sent
  refine ⟨⟨u.pending maxBody ++ lost, hwhole, fun halive => ?_⟩, fun _ => rfl, hheld, fun hended => ?_⟩
  · rw [hsent halive, hlost halive, List.append_nil]
  · exact absurd (h.ended hended).1 hrun

theorem onRecvData_forwards (h : u.Forwards maxBody s) (hpc : u.forwarder = .receiving) :
    (u.onRecvData maxBody).Forwards maxBody s := by
  have hrun := not_ended_of_receiving hpc
  have hpending : u.pending maxBody = forwardBody maxBody none u.seen 0 u.rest := by
    unfold pending
    rw [hpc]
  have hheld := h.held_receiving hpc
  unfold onRecvData
  split
  · rename_i bytes rest hrest
    rw [hrest] at hpending hheld
    have hnext : s.chunks.length ≤ rest.chunks.length + (u.channel.sent.length + 1) := by
      rw [ClientStream.chunks, List.length_cons] at hheld
      omega
    rw [forwardBody] at hpending
    simp only at hpending ⊢
    generalize (if maxBody.isSome = true then u.seen + bytes.length else u.seen) = seen at hpending ⊢
    split
    · rename_i hover
      rw [if_pos hover] at hpending
      exact stop_forwards h hrun (fun _ => hpending) hnext
    · rename_i hfits
      rw [if_neg hfits, if_neg (by simp), forwardBody_sent _ _ 0] at hpending
      obtain ⟨lost, hwhole, hlost⟩ := h.sent
      rw [hpending] at hwhole
      exact ⟨⟨lost, hwhole, hlost⟩, fun hsender => absurd (h.sender hsender) hrun, hnext,
        fun hended => absurd (h.ended hended).1 hrun⟩
  · rename_i hrest
    rw [hrest] at hpending hheld
    exact stop_forwards h hrun (fun _ => hpending) (by rw [hrest]; omega)
  · rename_i hrest
    rw [hrest] at hpending hheld
    exact stop_forwards h hrun (fun _ => hpending) (by rw [hrest]; omega)

theorem send_forwards (h : u.Forwards maxBody s) {bytes : Bytes} (hpc : u.forwarder = .sending bytes)
    (room : u.channel.HasRoom) :
    ({ u with channel := u.channel.send bytes room, forwarder := .receiving } : Upload).Forwards maxBody s := by
  have hrun := not_ended_of_sending hpc
  have hpending : u.pending maxBody = bytes :: forwardBody maxBody none u.seen 0 u.rest := by
    unfold pending
    rw [hpc]
  obtain ⟨lost, hwhole, hlost⟩ := h.sent
  refine ⟨⟨lost, ?_, hlost⟩, fun hsender => absurd (h.sender hsender) hrun, ?_,
    fun hended => absurd (h.ended hended).1 hrun⟩
  · rw [hpending] at hwhole
    rw [Chan.sent_send, List.append_assoc]
    exact hwhole
  · rw [Chan.sent_send, List.length_append]
    exact h.held_sending hpc

/-- **A step keeps what was sent and what is yet to be sent together.** -/
theorem next_forwards (h : u.Forwards maxBody s) {e : UploadEvent} (hnext : u.next maxBody e = some v) :
    v.Forwards maxBody s := by
  cases e with
  | recvData =>
    simp only [next] at hnext
    split at hnext
    · rename_i hpc
      rw [← Option.some.inj hnext]
      exact onRecvData_forwards h hpc
    · cases hnext
  | send =>
    simp only [next] at hnext
    split at hnext
    · rename_i bytes hpc
      split at hnext
      · split at hnext
        · rw [← Option.some.inj hnext]
          exact send_forwards h hpc ‹_›
        · cases hnext
      · rename_i hgone
        rw [← Option.some.inj hnext]
        exact stop_forwards h (not_ended_of_sending hpc) (fun halive => absurd halive hgone) (h.held_sending hpc)
    · cases hnext
  | take =>
    obtain ⟨⟨bytes, channel⟩, hrecv, hrest⟩ := Option.bind_eq_some_iff.1 hnext
    obtain ⟨-, hwaiting, hsent, hsender, hreceiver⟩ := Chan.recv_eq_some hrecv
    split at hrest
    · rw [← Option.some.inj hrest]
      refine ⟨?_, fun halive => h.sender (hsender.symm.trans halive), ?_, fun hended => ?_⟩
      · show ∃ lost, channel.sent ++ (u.pending maxBody ++ lost) = _ ∧ (channel.receiverAlive = true → lost = [])
        rw [hsent, hreceiver]
        exact h.sent
      · show s.chunks.length ≤ u.rest.chunks.length + (channel.sent.length + u.inHand)
        rw [hsent]
        exact h.held
      · rw [(h.ended hended).2.1] at hwaiting
        cases hwaiting
    · cases hrest
  | takeEnd =>
    simp only [next] at hnext
    split at hnext
    · rename_i hend
      rw [Bool.and_eq_true, Bool.and_eq_true, Bool.not_eq_true'] at hend
      obtain ⟨⟨halive, hsender⟩, hempty⟩ := hend
      rw [← Option.some.inj hnext]
      refine ⟨h.sent, h.sender, h.held, fun _ => ?_⟩
      have hended := h.sender hsender
      obtain ⟨lost, hwhole, hlost⟩ := h.sent
      have hpending : u.pending maxBody = [] := by
        unfold pending
        rw [hended]
      rw [hpending, hlost halive, List.append_nil, List.append_nil] at hwhole
      exact ⟨hended, List.isEmpty_iff.1 hempty, hwhole⟩
    · cases hnext
  | dropReceiver =>
    rw [← Option.some.inj hnext]
    obtain ⟨lost, hwhole, -⟩ := h.sent
    exact ⟨⟨lost, hwhole, fun halive => by cases halive⟩, h.sender, h.held, h.ended⟩

/-- **What the upstream has taken is the start of the chunks that fit.** -/
theorem Forwards.taken_prefix (h : u.Forwards maxBody s) : u.channel.taken <+: upTo maxBody s.chunks := by
  obtain ⟨lost, hwhole, -⟩ := h.sent
  rw [forwardBody_eq_upTo] at hwhole
  exact u.channel.taken_prefix.trans ⟨_, hwhole⟩

/-- The forwarder and the channel hold five chunks at most. -/
theorem Forwards.held_le (h : u.Forwards maxBody s) :
    s.chunks.length ≤ u.rest.chunks.length + u.channel.taken.length + 5 := by
  have hheld := h.held
  have hfits := u.channel.fits
  have hreceived := u.channel.received_le
  have htaken : u.channel.taken.length = u.channel.received := by
    unfold Chan.taken
    rw [List.length_take]
    omega
  have hhand : u.inHand ≤ 1 := by
    unfold inHand
    split <;> omega
  unfold channelSize at hfits
  omega

/-- **The forwarder waits for the client or for an upstream that can go on.** -/
theorem goes_on (maxBody : Option Nat) (u : Upload) (hrun : u.forwarder ≠ .ended) :
    (u.next maxBody .recvData).isSome = true ∨ (u.next maxBody .send).isSome = true ∨
      (u.next maxBody .take).isSome = true := by
  cases hpc : u.forwarder with
  | receiving =>
    left
    unfold next
    simp only [hpc]
    rfl
  | sending bytes =>
    right
    by_cases halive : u.channel.receiverAlive = true
    · by_cases room : u.channel.HasRoom
      · left
        unfold next
        simp only [hpc, halive, room]
        rfl
      · right
        have hwaiting : u.channel.waiting ≠ [] := fun hnil =>
          room (Chan.hasRoom_of_waiting_nil (by decide) hnil)
        cases hrecv : u.channel.recv with
        | none => exact absurd ((Chan.recv_eq_none_iff _).1 hrecv) hwaiting
        | some r =>
          unfold next
          rw [hrecv, Option.bind_some, if_pos halive]
          rfl
    · left
      unfold next
      simp only [hpc, halive]
      rfl
  | ended => exact absurd hpc hrun

end Upload

/-! ## Whole runs -/

theorem Streams.upload_forwards {cfg : StreamConfig} {s : ClientStream} {es : List StreamEvent} {t : Streams cfg}
    (hrun : Runs.Run Streams.Step (Streams.start cfg s) es t) : t.upload.Forwards cfg.maxBodyBytes s := by
  refine hrun.invariant (P := fun t => t.upload.Forwards cfg.maxBodyBytes s) (fun a ev b h hstep => ?_)
    (Upload.start_forwards _ s)
  unfold Streams.Step Streams.next at hstep
  cases ev with
  | up ev =>
    obtain ⟨u, hnext, rfl⟩ := Option.map_eq_some_iff.1 hstep
    exact Upload.next_forwards h hnext
  | down ev =>
    obtain ⟨d, -, rfl⟩ := Option.map_eq_some_iff.1 hstep
    exact h

/-- How the client's body gets to the upstream: whole within the limit, a few chunks at a time, and without a
standstill. -/
structure UploadsWhole (maxBody : Option Nat) (s : ClientStream) (u : Upload) : Prop where
  prefix_taken : u.channel.taken <+: upTo maxBody s.chunks
  bounded : ∀ max, maxBody = some max → u.channel.taken.flatten.length ≤ max
  whole : u.bodyEnded = true → u.channel.taken = upTo maxBody s.chunks
  held : s.chunks.length ≤ u.rest.chunks.length + u.channel.taken.length + 5
  goes_on : u.forwarder ≠ .ended → (u.next maxBody .recvData).isSome = true ∨ (u.next maxBody .send).isSome = true ∨
    (u.next maxBody .take).isSome = true

/-- **The upstream takes the chunks that fit the limit**, in order and however the steps of the forwarder, the upstream
and the request's task are interleaved; it sees the end of the body behind the last of them, and the proxy holds five
chunks at most. -/
theorem upload_of_run {cfg : StreamConfig} {s : ClientStream} {es : List StreamEvent} {t : Streams cfg}
    (hrun : Runs.Run Streams.Step (Streams.start cfg s) es t) : UploadsWhole cfg.maxBodyBytes s t.upload := by
  have h := Streams.upload_forwards hrun
  refine ⟨h.taken_prefix, fun max hmax => ?_, fun hended => ?_, h.held_le, Upload.goes_on _ _⟩
  · obtain ⟨later, hlater⟩ := h.taken_prefix
    have hbound := length_upTo_le s.chunks max
    rw [← hmax, ← hlater, List.flatten_append, List.length_append] at hbound
    omega
  · obtain ⟨-, hwaiting, hsent⟩ := h.ended hended
    rw [Chan.taken_eq_sent hwaiting, hsent, forwardBody_eq_upTo]

theorem cut_upload_taken : ∃ t, pageEvents.foldlM Streams.next (Streams.start pageStream fiveBytes) = some t ∧
    t.upload.bodyEnded = true ∧ UploadsWhole pageStream.maxBodyBytes fiveBytes t.upload := by
  obtain ⟨t, hrun, hended, -⟩ := pageEvents_run
  exact ⟨t, hrun, hended, upload_of_run (Runs.run_of_foldlM hrun)⟩

end Http3

end Zaphyl
