import Zaphyl.BodyFilter
import Zaphyl.PluginStage
/-!
# BodyBound — the request-body bytes a listener hands on

A body reaches an upstream through the body filter (HTTP/1 and HTTP/2) or the forwarder task (HTTP/3), and a plugin
chain through a buffer.  The first two keep within the body limit; the buffer has a cap of its own, so what a chain is
handed is within the limit only when the client's body is (`body_within_limit_iff`).
-/
namespace Zaphyl

/-- The request-body bytes that a listener hands to a plugin chain, or to its upstream in all attempts: `reads` are the
chunks that each attempt of HTTP/1 reads, and the upstream of HTTP/3 drops the body after `receiver` frames. -/
def Server.bodyHanded (s : Server) (listener : Listener) (v : Visit) (receiver : Option Nat) (reads : List Nat) : Nat :=
  match (s.handle listener v).answer with
  | .plugins _ request _ _ => request.body.length
  | .forwarded _ =>
    match listener with
    | .http1 => handedBytes (BodySession.attempts s.maxBodyBytes (BodySession.start v.body.chunks) reads)
    | .http3 => (forwardBody s.maxBodyBytes receiver 0 0 v.body).flatten.length
  | _ => 0

/-! ## The streamed bodies -/

theorem length_upTo_le : ∀ (chunks : List Bytes) (budget : Nat), (upTo (some budget) chunks).flatten.length ≤ budget
  | [], budget => Nat.zero_le _
  | bytes :: chunks, budget => by
    rw [upTo]
    split
    · have ih := length_upTo_le chunks (budget - bytes.length)
      rw [List.flatten_cons, List.length_append]
      omega
    · exact Nat.zero_le _

theorem length_flatten_take_le (chunks : List Bytes) (n : Nat) :
    (chunks.take n).flatten.length ≤ chunks.flatten.length := by
  have hsplit := congrArg (fun l => List.length (List.flatten l)) (List.take_append_drop n chunks)
  simp only [List.flatten_append, List.length_append] at hsplit
  omega

/-- **The forwarder sends no more than the limit.** -/
theorem length_forwardBody_le (max : Nat) (receiver : Option Nat) (s : ClientStream) :
    (forwardBody (some max) receiver 0 0 s).flatten.length ≤ max := by
  have hfits := length_upTo_le s.chunks max
  cases receiver with
  | none => rwa [forwardBody_eq_upTo]
  | some dropped =>
    rw [forwardBody_dropped _ _ _ _ _ (Nat.zero_le _), forwardBody_eq_upTo]
    exact Nat.le_trans (length_flatten_take_le _ _) hfits

/-- **The body filter hands on no more than the limit**, in all attempts together. -/
theorem handedBytes_attempts_le (max : Nat) (chunks : List Bytes) (reads : List Nat) :
    handedBytes (BodySession.attempts (some max) (BodySession.start chunks) reads) ≤ max := by
  have hhanded := (BodySession.attempts_spec max reads (BodySession.start chunks) (Nat.zero_le _)).2
  have hseen : (BodySession.start chunks).bodySeen = 0 := rfl
  rwa [hseen, Nat.zero_add] at hhanded

/-! ## The bound -/

namespace Server

variable {s : Server} {listener : Listener} {v : Visit} {receiver : Option Nat} {reads : List Nat}

theorem bodyHanded_of_hands {request : PluginRequest} (h : (s.handle listener v).answer.Hands request) :
    s.bodyHanded listener v receiver reads = request.body.length := by
  obtain ⟨chain, host, target, hanswer⟩ := h
  unfold bodyHanded
  rw [hanswer]

/-- Without a plugin chain, what is handed on is within the limit. -/
theorem bodyHanded_le_of_no_chain {max : Nat} (hmax : s.maxBodyBytes = some max)
    (h : ∀ request, ¬ (s.handle listener v).answer.Hands request) : s.bodyHanded listener v receiver reads ≤ max := by
  unfold bodyHanded
  split
  · rename_i chain request host target hanswer
    exact absurd ⟨chain, host, target, hanswer⟩ (h request)
  · rw [hmax]
    cases listener with
    | http1 => exact handedBytes_attempts_le max _ reads
    | http3 => exact length_forwardBody_le max receiver _
  · exact Nat.zero_le _

end Server

/-- **The bytes handed on are within the limit exactly when a body that comes to a plugin chain is**: the plugin buffer
knows its own cap and no other. -/
theorem body_within_limit_iff (s : Server) (listener : Listener) (v : Visit) (receiver : Option Nat) (reads : List Nat)
    {max : Nat} (hmax : s.maxBodyBytes = some max) :
    s.bodyHanded listener v receiver reads ≤ max ↔
      ∀ matched, s.RunsPlugins listener v matched → v.body.body.length ≤ max := by
  constructor
  · intro h matched hruns
    have hhands := (handle_hands_iff s listener v _).2 ⟨matched, hruns, rfl⟩
    rwa [Server.bodyHanded_of_hands hhands] at h
  · intro h
    by_cases hany : ∃ request, (s.handle listener v).answer.Hands request
    · obtain ⟨request, hhands⟩ := hany
      obtain ⟨matched, hruns, rfl⟩ := (handle_hands_iff s listener v request).1 hhands
      rw [Server.bodyHanded_of_hands hhands]
      exact h matched hruns
    · exact Server.bodyHanded_le_of_no_chain hmax (not_exists.1 hany)

/-- A chain on the only route and a body limit of one byte, far below the chain's cap. -/
def guardedServer : Server :=
  { runningServer oneUpstream.router with
    maxBodyBytes := some 1
    plugins := some ⟨[["auth.wasm".toList]], 1048576⟩ }

/-- A form of two bytes that declares no length. -/
def formVisit : Visit :=
  { visitOf { getPage "a.test".toList with method := "POST".toList } with body := .chunk [1, 2] .finished }

theorem guarded_form_within_limit_iff :
    guardedServer.maxBodyBytes = some 1 ∧
      (guardedServer.bodyHanded .http3 formVisit none [] ≤ 1 ↔
        ∀ matched, guardedServer.RunsPlugins .http3 formVisit matched → formVisit.body.body.length ≤ 1) :=
  ⟨rfl, body_within_limit_iff guardedServer .http3 formVisit none [] rfl⟩

/-- **Under a limit of one byte a plugin chain is handed two**, on either listener. -/
theorem chain_handed_two_bytes :
    guardedServer.maxBodyBytes = some 1 ∧ guardedServer.bodyHanded .http1 formVisit none [1] = 2 ∧
      guardedServer.bodyHanded .http3 formVisit none [] = 2 ∧
      ¬ ∀ listener, guardedServer.bodyHanded listener formVisit none [] ≤ 1 := by
  have hhttp1 : ∀ reads, guardedServer.bodyHanded .http1 formVisit none reads = 2 := fun _ => rfl
  refine ⟨rfl, hhttp1 [1], rfl, fun h => ?_⟩
  have hle := h .http1
  rw [hhttp1 []] at hle
  omega

end Zaphyl
