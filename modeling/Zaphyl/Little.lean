import Mathlib.Algebra.Group.Nat.Defs
import Zaphyl.Utf8
/-!
# Little — little-endian integers of a fixed width

`toLe k n` writes the low `k` bytes of `n`, as a cast to `k` bytes followed by `to_le_bytes` does; `ofLe` reads any
bytes.
-/
namespace Little

def toLe : Nat → Nat → Bytes
  | 0, _ => []
  | k + 1, n => UInt8.ofNat n :: toLe k (n / 256)

def ofLe : Bytes → Nat
  | [] => 0
  | b :: bs => b.toNat + 256 * ofLe bs

@[simp] theorem length_toLe : ∀ (k n : Nat), (toLe k n).length = k
  | 0, _ => rfl
  | k + 1, n => by rw [toLe, List.length_cons, length_toLe k]

/-- **Reading back what was written gives the number modulo the width.** -/
theorem ofLe_toLe : ∀ (k n : Nat), ofLe (toLe k n) = n % 256 ^ k
  | 0, n => by simp [toLe, ofLe, Nat.mod_one]
  | k + 1, n => by
    have hb : (UInt8.ofNat n).toNat = n % 256 := by simp
    rw [toLe, ofLe, ofLe_toLe k (n / 256), hb, Nat.pow_succ', Nat.mod_mul]

theorem ofLe_toLe_of_lt {k n : Nat} (h : n < 256 ^ k) : ofLe (toLe k n) = n := by
  rw [ofLe_toLe, Nat.mod_eq_of_lt h]

/-- **Writing back what was read gives the bytes.** -/
theorem toLe_ofLe : ∀ (bs : Bytes), toLe bs.length (ofLe bs) = bs
  | [] => rfl
  | b :: bs => by
    have hb : b.toNat < 256 := b.toNat_lt
    have hhigh : (b.toNat + 256 * ofLe bs) / 256 = ofLe bs := by omega
    have hlow : UInt8.ofNat (b.toNat + 256 * ofLe bs) = b := by
      rw [← UInt8.toNat_inj, UInt8.toNat_ofNat']
      omega
    rw [List.length_cons, ofLe, toLe, hhigh, hlow, toLe_ofLe bs]

theorem ofLe_lt : ∀ (bs : Bytes), ofLe bs < 256 ^ bs.length
  | [] => by simp [ofLe]
  | b :: bs => by
    have ih := ofLe_lt bs
    have hb : b.toNat < 256 := b.toNat_lt
    rw [ofLe, List.length_cons, Nat.pow_succ]
    omega

end Little
