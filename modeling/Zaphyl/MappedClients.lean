import Zaphyl.AccessParse
/-!
# MappedClients — the access rules and IPv4 clients of a dual-stack listener

A dual-stack listener reports an IPv4 client by its mapped IPv6 address.  An IPv4 rule does not see that form, and an
IPv6 rule sees only it: the two forms of a client get one answer exactly where the IPv4 rules and the parts that the
IPv6 rules have of the mapped range come to the same (`mapped_client_iff`).
-/
namespace Zaphyl

namespace IpAddr

/-- `::ffff:a`. -/
def mapped (a : BitVec 32) : BitVec 128 := 0xffff#96 ++ a

theorem toNat_mapped (a : BitVec 32) : (mapped a).toNat = 0xffff * 2 ^ 32 + a.toNat := by
  unfold mapped
  rw [BitVec.toNat_append, ← Nat.shiftLeft_add_eq_or_of_lt a.isLt, Nat.shiftLeft_eq]
  rfl

end IpAddr

open IpAddr (mapped)

/-! ## Blocks of the mapped range -/

namespace IpNet

theorem everything_lt : 0 < 33 := by decide

/-- The block of all IPv4 addresses. -/
def everything : IpNet := v4 0 ⟨0, everything_lt⟩

/-- The part that a block has of the mapped range, as a block of IPv4 addresses. -/
def mappedBlock : IpNet → Option IpNet
  | v4 _ _ => none
  | v6 addr prefixLen =>
    if h : prefixLen.val ≤ 96 then
      -- all of the range or none
      if addr.toNat / 2 ^ (128 - prefixLen.val) = 0xffff * 2 ^ 32 / 2 ^ (128 - prefixLen.val) then some everything
      else none
    else if addr.toNat / 2 ^ 32 = 0xffff then some (v4 (addr.setWidth 32) ⟨prefixLen.val - 96, by omega⟩)
    else none

theorem contains_v4_iff (addr bits : BitVec 32) (prefixLen : Fin 33) :
    (v4 addr prefixLen).contains (.v4 bits) = true ↔
      addr.toNat / 2 ^ (32 - prefixLen.val) = bits.toNat / 2 ^ (32 - prefixLen.val) := by
  show (addr >>> (32 - prefixLen.val) == bits >>> (32 - prefixLen.val)) = true ↔ _
  rw [beq_iff_eq, ← BitVec.toNat_inj, BitVec.toNat_ushiftRight, BitVec.toNat_ushiftRight, Nat.shiftRight_eq_div_pow,
    Nat.shiftRight_eq_div_pow]

theorem contains_v6_iff (addr bits : BitVec 128) (prefixLen : Fin 129) :
    (v6 addr prefixLen).contains (.v6 bits) = true ↔
      addr.toNat / 2 ^ (128 - prefixLen.val) = bits.toNat / 2 ^ (128 - prefixLen.val) := by
  show (addr >>> (128 - prefixLen.val) == bits >>> (128 - prefixLen.val)) = true ↔ _
  rw [beq_iff_eq, ← BitVec.toNat_inj, BitVec.toNat_ushiftRight, BitVec.toNat_ushiftRight, Nat.shiftRight_eq_div_pow,
    Nat.shiftRight_eq_div_pow]

theorem everything_contains (bits : BitVec 32) : everything.contains (.v4 bits) = true := by
  unfold everything
  rw [contains_v4_iff]
  exact ((Nat.div_eq_of_lt (by decide)).trans (Nat.div_eq_of_lt bits.isLt).symm :
    (0 : BitVec 32).toNat / 2 ^ 32 = bits.toNat / 2 ^ 32)

/-- The bits of two numbers from the `k`-th on agree when their halves' do. -/
theorem halves_div_eq_iff {h h' l l' k w : Nat} (hk : k ≤ w) (hl : l < 2 ^ w) (hl' : l' < 2 ^ w) :
    (h * 2 ^ w + l) / 2 ^ k = (h' * 2 ^ w + l') / 2 ^ k ↔ h = h' ∧ l / 2 ^ k = l' / 2 ^ k := by
  have hsplit : 2 ^ w = 2 ^ (w - k) * 2 ^ k := by rw [← Nat.pow_add, Nat.sub_add_cancel hk]
  have hdiv : ∀ h l : Nat, (h * 2 ^ w + l) / 2 ^ k = h * 2 ^ (w - k) + l / 2 ^ k := by
    intro h l
    rw [hsplit, ← Nat.mul_assoc, Nat.mul_comm _ (2 ^ k), Nat.mul_add_div (Nat.two_pow_pos k)]
  have hlow : ∀ {l : Nat}, l < 2 ^ w → l / 2 ^ k < 2 ^ (w - k) := by
    intro l hl
    rwa [Nat.div_lt_iff_lt_mul (Nat.two_pow_pos k), ← hsplit]
  rw [hdiv, hdiv]
  constructor
  · intro heq
    have hhigh := congrArg (· / 2 ^ (w - k)) heq
    simp only [Nat.mul_comm _ (2 ^ (w - k)), Nat.mul_add_div (Nat.two_pow_pos _), Nat.div_eq_of_lt (hlow hl),
      Nat.div_eq_of_lt (hlow hl'), Nat.add_zero] at hhigh
    subst hhigh
    exact ⟨rfl, Nat.add_left_cancel heq⟩
  · rintro ⟨rfl, hlow⟩
    rw [hlow]

section
variable {addr : BitVec 128} {prefixLen : Fin 129}

theorem mappedBlock_of_wide (hwide : prefixLen.val ≤ 96) :
    (v6 addr prefixLen).mappedBlock =
      if addr.toNat / 2 ^ (128 - prefixLen.val) = 0xffff * 2 ^ 32 / 2 ^ (128 - prefixLen.val) then some everything
      else none := dif_pos hwide

/-- A block of up to 96 bits has all of the mapped range or nothing of it. -/
theorem contains_mapped_of_wide (hwide : prefixLen.val ≤ 96) (a : BitVec 32) :
    (v6 addr prefixLen).contains (.v6 (mapped a)) = true ↔
      addr.toNat / 2 ^ (128 - prefixLen.val) = 0xffff * 2 ^ 32 / 2 ^ (128 - prefixLen.val) := by
  have hrange : (0xffff * 2 ^ 32 + a.toNat) / 2 ^ (128 - prefixLen.val) =
      0xffff * 2 ^ 32 / 2 ^ (128 - prefixLen.val) := by
    have hshift : (2 : Nat) ^ (128 - prefixLen.val) = 2 ^ 32 * 2 ^ (96 - prefixLen.val) := by
      rw [← Nat.pow_add]
      congr 1
      omega
    rw [hshift, ← Nat.div_div_eq_div_mul, ← Nat.div_div_eq_div_mul]
    have := a.isLt
    congr 1
    omega
  rw [contains_v6_iff, IpAddr.toNat_mapped, hrange]

/-- A longer one lies in the range by its upper bits, and splits it by its lower ones. -/
theorem contains_mapped_of_narrow (hnarrow : ¬ prefixLen.val ≤ 96) (a : BitVec 32) :
    (v6 addr prefixLen).contains (.v6 (mapped a)) = true ↔ addr.toNat / 2 ^ 32 = 0xffff ∧
      addr.toNat % 2 ^ 32 / 2 ^ (128 - prefixLen.val) = a.toNat / 2 ^ (128 - prefixLen.val) := by
  have hshift : 128 - prefixLen.val ≤ 32 := by omega
  have hlow : addr.toNat % 2 ^ 32 < 2 ^ 32 := Nat.mod_lt _ (by decide)
  rw [contains_v6_iff, IpAddr.toNat_mapped, ← halves_div_eq_iff hshift hlow a.isLt,
    Nat.mul_comm (addr.toNat / 2 ^ 32), Nat.div_add_mod]

end

/-- **A block has the mapped form of an address exactly when its part of the mapped range has the address.** -/
theorem contains_mapped_iff (net : IpNet) (a : BitVec 32) :
    net.contains (.v6 (mapped a)) = true ↔
      ∃ block, net.mappedBlock = some block ∧ block.contains (.v4 a) = true := by
  cases net with
  | v4 addr prefixLen =>
    refine iff_of_false (fun h => by cases h) ?_
    rintro ⟨_, h, -⟩
    cases h
  | v6 addr prefixLen =>
    by_cases hwide : prefixLen.val ≤ 96
    · rw [contains_mapped_of_wide hwide, mappedBlock_of_wide hwide]
      split
      · rename_i h
        exact ⟨fun _ => ⟨everything, rfl, everything_contains a⟩, fun _ => h⟩
      · rename_i h
        exact ⟨fun heq => absurd heq h, fun ⟨_, hnone, _⟩ => by cases hnone⟩
    · have hblock : (v6 addr prefixLen).mappedBlock =
          if addr.toNat / 2 ^ 32 = 0xffff then some (v4 (addr.setWidth 32) ⟨prefixLen.val - 96, by omega⟩)
          else none := dif_neg hwide
      have hpart : (v4 (addr.setWidth 32) ⟨prefixLen.val - 96, by omega⟩).contains (.v4 a) = true ↔
          addr.toNat % 2 ^ 32 / 2 ^ (128 - prefixLen.val) = a.toNat / 2 ^ (128 - prefixLen.val) := by
        rw [contains_v4_iff, BitVec.toNat_setWidth]
        show addr.toNat % 2 ^ 32 / 2 ^ (32 - (prefixLen.val - 96)) = a.toNat / 2 ^ (32 - (prefixLen.val - 96)) ↔ _
        rw [show 32 - (prefixLen.val - 96) = 128 - prefixLen.val by omega]
      rw [contains_mapped_of_narrow hwide, hblock, ← hpart]
      split
      · rename_i hrange
        rw [and_iff_right hrange]
        exact ⟨fun h => ⟨_, rfl, h⟩, fun ⟨_, hblock, h⟩ => by rw [Option.some.inj hblock]; exact h⟩
      · rename_i hrange
        exact ⟨fun h => absurd h.1 hrange, fun ⟨_, hnone, _⟩ => by cases hnone⟩

end IpNet

/-! ## Rules -/

/-- Blocks that let an address in: none of the denied ones has it and, where there is an allow list, one of its blocks
does. -/
def LetIn (listed : Bool) (allow deny : List IpNet) (a : BitVec 32) : Prop :=
  (∀ net ∈ deny, net.contains (.v4 a) = false) ∧ (listed = true → ∃ net ∈ allow, net.contains (.v4 a) = true)

namespace AccessControl

variable (ac : AccessControl) (a : BitVec 32)

/-- The rules of IPv4 blocks let the address in. -/
def LetInByV4 : Prop := LetIn (!ac.allow.isEmpty) ac.allow ac.deny a

/-- The rules of IPv6 blocks let it in, by what they have of the mapped range. -/
def LetInByV6 : Prop :=
  LetIn (!ac.allow.isEmpty) (ac.allow.filterMap IpNet.mappedBlock) (ac.deny.filterMap IpNet.mappedBlock) a

theorem allows_v4_iff : ac.allows (.v4 a) = true ↔ ac.LetInByV4 a := by
  unfold LetInByV4 LetIn
  rw [allows_iff, Bool.not_eq_true', List.isEmpty_eq_false_iff]

theorem allows_mapped_iff : ac.allows (.v6 (mapped a)) = true ↔ ac.LetInByV6 a := by
  unfold LetInByV6 LetIn
  rw [allows_iff, Bool.not_eq_true', List.isEmpty_eq_false_iff]
  simp only [List.mem_filterMap, ← Bool.not_eq_true, IpNet.contains_mapped_iff]
  refine and_congr ⟨?_, ?_⟩ (imp_congr_right (fun _ => ⟨?_, ?_⟩))
  · rintro h block ⟨net, hnet, hblock⟩ hin
    exact h net hnet ⟨block, hblock, hin⟩
  · rintro h net hnet ⟨block, hblock, hin⟩
    exact h block ⟨net, hnet, hblock⟩ hin
  · rintro ⟨net, hnet, block, hblock, hin⟩
    exact ⟨block, ⟨net, hnet, hblock⟩, hin⟩
  · rintro ⟨block, ⟨net, hnet, hblock⟩, hin⟩
    exact ⟨net, hnet, block, hblock, hin⟩

/-- Rules without a block of the mapped range agree on the clients that IPv4 rules let in if there is no allow list, and
on those they refuse if there is one. -/
theorem letIn_alike_of_no_mappedBlock (h : ∀ net ∈ ac.allow ++ ac.deny, net.mappedBlock = none) :
    (ac.LetInByV4 a ↔ ac.LetInByV6 a) ↔ (ac.LetInByV4 a ↔ ac.allow = []) := by
  have hnone : ∀ {nets : List IpNet}, (∀ net ∈ nets, net.mappedBlock = none) →
      nets.filterMap IpNet.mappedBlock = [] := fun h =>
    List.filterMap_eq_nil_iff.2 h
  have hv6 : ac.LetInByV6 a ↔ ac.allow = [] := by
    unfold LetInByV6 LetIn
    rw [hnone (fun net hnet => h net (List.mem_append_left _ hnet)),
      hnone (fun net hnet => h net (List.mem_append_right _ hnet))]
    simp
  rw [hv6]

/-- **The two forms of an IPv4 client get one answer exactly when the IPv4 rules let it in where the IPv6 rules let in
its mapped form**: by rules without a block of the mapped range, where the IPv4 rules let in exactly without an allow
list. -/
theorem mapped_client_iff :
    (ac.allows (.v4 a) = ac.allows (.v6 (mapped a)) ↔ (ac.LetInByV4 a ↔ ac.LetInByV6 a)) ∧
      ((∀ net ∈ ac.allow ++ ac.deny, net.mappedBlock = none) →
        (ac.allows (.v4 a) = ac.allows (.v6 (mapped a)) ↔ (ac.LetInByV4 a ↔ ac.allow = []))) := by
  have hforms : ac.allows (.v4 a) = ac.allows (.v6 (mapped a)) ↔ (ac.LetInByV4 a ↔ ac.LetInByV6 a) := by
    rw [Bool.eq_iff_iff, allows_v4_iff, allows_mapped_iff]
  exact ⟨hforms, fun h => hforms.trans (ac.letIn_alike_of_no_mappedBlock a h)⟩

/-- A client whose address is denied gets in by its mapped form. -/
theorem deny_text_admits_mapped {fromStr : Str → Option IpNet} (h : fromStr (IpAddr.v4Text a) = none) :
    ∃ ac, AccessControl.parse fromStr [] [IpAddr.v4Text a] = .ok ac ∧ ac.allows (.v4 a) = false ∧
      ac.allows (.v6 (mapped a)) = true := by
  refine ⟨⟨[], [.v4 a 32]⟩, ?_, ?_, ?_⟩
  · unfold AccessControl.parse parseNets
    rw [List.mapM_cons, parseNet_v4Text h]
    rfl
  · rw [← Bool.not_eq_true, allows_iff]
    exact fun hin => by simpa [IpNet.contains] using hin.1 _ List.mem_cons_self
  · rw [allows_iff]
    refine ⟨fun net hnet => ?_, fun hne => absurd rfl hne⟩
    rw [List.mem_singleton.1 hnet]
    rfl

/-- **The deny list `1.2.3.4` lets in `::ffff:1.2.3.4`.** -/
theorem denied_client_mapped_in :
    ∃ ac, AccessControl.parse (fun _ => none) [] ["1.2.3.4".toList] = .ok ac ∧
      ac.allows (.v4 (BitVec.ofNat 32 0x01020304)) = false ∧
      ac.allows (.v6 (mapped (BitVec.ofNat 32 0x01020304))) = true :=
  ⟨⟨[], [.v4 (BitVec.ofNat 32 0x01020304) 32]⟩, by decide, by decide, by decide⟩

end AccessControl
end Zaphyl
