import Mathlib.Algebra.Order.Ring.Int
import Zaphyl.Text
/-!
# Access — client addresses and the access rules

Allow and deny rules are blocks of addresses of one family.  A client is allowed when no deny rule contains it and,
where there are allow rules, one of them does (`allows_iff`).
-/
namespace Zaphyl

inductive IpAddr
  | v4 (bits : BitVec 32)
  | v6 (bits : BitVec 128)
deriving DecidableEq

namespace IpAddr

def v4Text (bits : BitVec 32) : Str :=
  Text.join '.' ((List.range 4).map (fun i => Nat.toDigits 10 (bits.toNat / 256 ^ (3 - i) % 256)))

def segments (bits : BitVec 128) : List Nat := (List.range 8).map (fun i => bits.toNat / 65536 ^ (7 - i) % 65536)

/-- The first longest run of zero segments, as its start and length. -/
def zeroRun (segments : List Nat) : Nat × Nat :=
  (List.range 8).foldl (fun best i =>
    let length := ((segments.drop i).takeWhile (· == 0)).length
    if best.2 < length then (i, length) else best) (0, 0)

def hexText (segments : List Nat) : Str := Text.join ':' (segments.map (Nat.toDigits 16))

def v6Text (bits : BitVec 128) : Str :=
  let segments := segments bits
  if segments.take 6 = [0, 0, 0, 0, 0, 65535] then "::ffff:".toList ++ v4Text (bits.setWidth 32)
  else
    let run := zeroRun segments
    if 1 < run.2 then
      hexText (segments.take run.1) ++ "::".toList ++ hexText (segments.drop (run.1 + run.2))
    else hexText segments

/-- `IpAddr::to_string`. -/
def text : IpAddr → Str
  | v4 bits => v4Text bits
  | v6 bits => v6Text bits

theorem digitChar_of_mem_toDigitsCore (b : Nat) : ∀ (fuel n : Nat) (ds : Str) {c : Char},
    c ∈ Nat.toDigitsCore b fuel n ds → (∃ d, c = Nat.digitChar d) ∨ c ∈ ds
  | 0, n, ds, c, h => Or.inr h
  | fuel + 1, n, ds, c, h => by
    rw [Nat.toDigitsCore] at h
    have hcons : c ∈ Nat.digitChar (n % b) :: ds → (∃ d, c = Nat.digitChar d) ∨ c ∈ ds := fun h =>
      (List.mem_cons.1 h).imp (fun h => ⟨_, h⟩) id
    split at h
    · exact hcons h
    · rcases digitChar_of_mem_toDigitsCore b fuel _ _ h with h | h
      · exact Or.inl h
      · exact hcons h

/-- Digits are visible characters. -/
theorem visible_toDigits (b n : Nat) : ∀ c ∈ Nat.toDigits b n, 32 ≤ c.toNat ∧ c.toNat < 127 := by
  have hdigit : ∀ d, 32 ≤ (Nat.digitChar d).toNat ∧ (Nat.digitChar d).toNat < 127 := by
    have hlow : ∀ d : Fin 16, 32 ≤ (Nat.digitChar d).toNat ∧ (Nat.digitChar d).toNat < 127 := by decide
    intro d
    by_cases hd : d < 16
    · exact hlow ⟨d, hd⟩
    · rw [Nat.digitChar_eq_star.2 (Nat.le_of_not_lt hd)]
      decide
  intro c hc
  rcases digitChar_of_mem_toDigitsCore b _ _ _ hc with ⟨d, rfl⟩ | h
  · exact hdigit d
  · cases h

/-- An address is written in visible characters. -/
theorem visible_text (ip : IpAddr) : ∀ c ∈ ip.text, 32 ≤ c.toNat ∧ c.toNat < 127 := by
  have hjoin : ∀ (sep : Char) (pieces : List Str), (32 ≤ sep.toNat ∧ sep.toNat < 127) →
      (∀ p ∈ pieces, ∀ c ∈ p, 32 ≤ c.toNat ∧ c.toNat < 127) →
      ∀ c ∈ Text.join sep pieces, 32 ≤ c.toNat ∧ c.toNat < 127 := by
    intro sep pieces hsep hpieces c hc
    rcases Text.mem_of_mem_join hc with rfl | ⟨p, hp, hc⟩
    · exact hsep
    · exact hpieces p hp c hc
  have hv4 : ∀ bits, ∀ c ∈ v4Text bits, 32 ≤ c.toNat ∧ c.toNat < 127 := by
    intro bits
    apply hjoin '.' _ (by decide)
    intro p hp
    obtain ⟨i, -, rfl⟩ := List.mem_map.1 hp
    exact visible_toDigits _ _
  have hhex : ∀ segments, ∀ c ∈ hexText segments, 32 ≤ c.toNat ∧ c.toNat < 127 := by
    intro segments
    apply hjoin ':' _ (by decide)
    intro p hp
    obtain ⟨i, -, rfl⟩ := List.mem_map.1 hp
    exact visible_toDigits _ _
  cases ip with
  | v4 bits => exact hv4 bits
  | v6 bits =>
    have hall : ∀ {t : Str}, t.all (fun c => 32 ≤ c.toNat && c.toNat < 127) = true →
        ∀ c ∈ t, 32 ≤ c.toNat ∧ c.toNat < 127 := by
      intro t ht c hc
      simpa using List.all_eq_true.1 ht c hc
    have hmapped : ∀ c ∈ "::ffff:".toList, 32 ≤ c.toNat ∧ c.toNat < 127 := hall (by decide)
    have hcolons : ∀ c ∈ "::".toList, 32 ≤ c.toNat ∧ c.toNat < 127 := hall (by decide)
    intro c hc
    have hc : c ∈ v6Text bits := hc
    unfold v6Text at hc
    simp only at hc
    split at hc
    · exact (List.mem_append.1 hc).elim (hmapped c) (hv4 _ c)
    · split at hc
      · rcases List.mem_append.1 hc with hc | hc
        · exact (List.mem_append.1 hc).elim (hhex _ c) (hcolons c)
        · exact hhex _ c hc
      · exact hhex _ c hc

example : (IpAddr.v6 (BitVec.ofNat 128 0xFE80_0000_0000_0000_0000_0000_0000_0001)).text = "fe80::1".toList := by decide

end IpAddr

/-- A block of addresses: those that share the first `prefixLen` bits with its own. -/
inductive IpNet
  | v4 (addr : BitVec 32) (prefixLen : Fin 33)
  | v6 (addr : BitVec 128) (prefixLen : Fin 129)
deriving DecidableEq

def IpNet.contains : IpNet → IpAddr → Bool
  | v4 addr prefixLen, .v4 bits => addr >>> (32 - prefixLen.val) == bits >>> (32 - prefixLen.val)
  | v6 addr prefixLen, .v6 bits => addr >>> (128 - prefixLen.val) == bits >>> (128 - prefixLen.val)
  | _, _ => false

structure AccessControl where
  allow : List IpNet
  deny : List IpNet
deriving DecidableEq

namespace AccessControl

def isEmpty (a : AccessControl) : Bool := a.allow.isEmpty && a.deny.isEmpty

def allows (a : AccessControl) (ip : IpAddr) : Bool :=
  if a.deny.any (fun net => net.contains ip) then false
  else if !a.allow.isEmpty && !a.allow.any (fun net => net.contains ip) then false
  else true

/-- **A client is allowed exactly when no deny rule contains it and an allow rule does, if there are any.** -/
theorem allows_iff (a : AccessControl) (ip : IpAddr) :
    a.allows ip = true ↔
      (∀ net ∈ a.deny, net.contains ip = false) ∧ (a.allow ≠ [] → ∃ net ∈ a.allow, net.contains ip = true) := by
  unfold allows
  by_cases hdeny : a.deny.any (fun net => net.contains ip) = true
  · obtain ⟨net, hnet, hin⟩ := List.any_eq_true.1 hdeny
    rw [if_pos hdeny]
    refine iff_of_false (by simp) (fun h => ?_)
    rw [h.1 net hnet] at hin
    cases hin
  · have hnone : ∀ net ∈ a.deny, net.contains ip = false := by simpa using hdeny
    rw [if_neg hdeny, iff_true_intro hnone, true_and]
    cases hallow : a.allow with
    | nil => simp
    | cons net nets => simp

/-- Without rules every client is allowed. -/
theorem allows_of_isEmpty {a : AccessControl} (h : a.isEmpty = true) (ip : IpAddr) : a.allows ip = true := by
  unfold isEmpty at h
  rw [Bool.and_eq_true, List.isEmpty_iff, List.isEmpty_iff] at h
  rw [allows_iff, h.1, h.2]
  simp

example : (AccessControl.mk [.v4 (BitVec.ofNat 32 0xC0A80000) 16] []).allows (.v4 (BitVec.ofNat 32 0xC0A80505)) = true := by
  decide

end AccessControl
end Zaphyl
