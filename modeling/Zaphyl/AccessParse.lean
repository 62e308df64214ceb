import Zaphyl.Access
/-!
# AccessParse — access rules from their entries

An entry of the access lists is a block of addresses or a bare address, which stands for the block of itself alone.  An
address is read as the standard library reads it; the text of an IPv4 address reads back as the address
(`parse_v4Text`).
-/
namespace Zaphyl

open Text (join)

namespace IpAddr

/-! ## Numbers -/

/-- `char::to_digit`. -/
def toDigit (radix : Nat) (c : Char) : Option Nat :=
  let value :=
    if '0' ≤ c ∧ c ≤ '9' then some (c.toNat - 48)
    else if 'a' ≤ c ∧ c ≤ 'z' then some (c.toNat - 87)
    else if 'A' ≤ c ∧ c ≤ 'Z' then some (c.toNat - 55)
    else none
  value.filter (· < radix)

def ofDigits (radix : Nat) (digits : Str) : Nat :=
  digits.foldl (fun n c => n * radix + (toDigit radix c).getD 0) 0

/-- `Parser::read_number`: the digits in front and what follows them.  More than `maxDigits` of them are no number. -/
def readNumber (radix maxDigits : Nat) (allowZeroPrefix : Bool) (bound : Nat) (s : Str) : Option (Nat × Str) :=
  let digits := s.takeWhile (fun c => (toDigit radix c).isSome)
  if digits = [] ∨ maxDigits < digits.length then none
  else if allowZeroPrefix = false ∧ s.head? = some '0' ∧ 1 < digits.length then none
  else if ofDigits radix digits < bound then some (ofDigits radix digits, s.drop digits.length)
  else none

/-- `Parser::read_separator`: what stands behind the separator, or at the start. -/
def readSeparator {α : Type} (sep : Char) (i : Nat) (inner : Str → Option (α × Str)) (s : Str) :
    Option (α × Str) :=
  if i = 0 then inner s
  else
    match s with
    | [] => none
    | c :: rest => if c = sep then inner rest else none

/-! ## Addresses -/

def readOctet (i : Nat) (s : Str) : Option (Nat × Str) := readSeparator '.' i (readNumber 10 3 false 256) s

def readIpv4Addr (s : Str) : Option (BitVec 32 × Str) := do
  let (a, s) ← readOctet 0 s
  let (b, s) ← readOctet 1 s
  let (c, s) ← readOctet 2 s
  let (d, s) ← readOctet 3 s
  some (BitVec.ofNat 32 (((a * 256 + b) * 256 + c) * 256 + d), s)

/-- `read_groups`: the groups from the `i`-th on, at most `left` of them, whether an IPv4 address made the last two, and
what follows. -/
def readGroups : Nat → Nat → Str → List Nat × Bool × Str
  | 0, _, s => ([], false, s)
  | left + 1, i, s =>
    match if 0 < left then readSeparator ':' i readIpv4Addr s else none with
    | some (bits, rest) => ([bits.toNat / 65536, bits.toNat % 65536], true, rest)
    | none =>
      match readSeparator ':' i (readNumber 16 4 true 65536) s with
      | some (group, rest) =>
        let more := readGroups left (i + 1) rest
        (group :: more.1, more.2.1, more.2.2)
      | none => ([], false, s)

def ofGroups (groups : List Nat) : BitVec 128 := BitVec.ofNat 128 (groups.foldl (fun n g => n * 65536 + g) 0)

def readIpv6Addr (s : Str) : Option (BitVec 128 × Str) :=
  match readGroups 8 0 s with
  | (head, headIpv4, rest) =>
    if head.length = 8 then some (ofGroups head, rest)
    -- no IPv4 part before `::`
    else if headIpv4 then none
    else
      match rest with
      | ':' :: ':' :: rest =>
        -- the `::` holds at least one group of zeros
        match readGroups (8 - (head.length + 1)) 0 rest with
        | (tail, _, rest) =>
          some (ofGroups (head ++ List.replicate (8 - head.length - tail.length) 0 ++ tail), rest)
      | _ => none

/-- `IpAddr::from_str`. -/
def parse (s : Str) : Option IpAddr :=
  let read := ((readIpv4Addr s).map (Prod.map v4 id)).or ((readIpv6Addr s).map (Prod.map v6 id))
  match read with
  | some (ip, []) => some ip
  | _ => none

/-! ## The text of an address -/

/-- An octet is written in one to three digits, without a leading zero. -/
theorem toDigits_octet (n : Nat) (hn : n < 256) :
    (Nat.toDigits 10 n).all (fun c => (toDigit 10 c).isSome) = true ∧ Nat.toDigits 10 n ≠ [] ∧
      (Nat.toDigits 10 n).length ≤ 3 ∧
      ((Nat.toDigits 10 n).head? = some '0' → (Nat.toDigits 10 n).length ≤ 1) ∧
      ofDigits 10 (Nat.toDigits 10 n) = n := by
  have hall : ∀ n : Fin 256, (Nat.toDigits 10 n.val).all (fun c => (toDigit 10 c).isSome) = true ∧
      Nat.toDigits 10 n.val ≠ [] ∧ (Nat.toDigits 10 n.val).length ≤ 3 ∧
      ((Nat.toDigits 10 n.val).head? = some '0' → (Nat.toDigits 10 n.val).length ≤ 1) ∧
      ofDigits 10 (Nat.toDigits 10 n.val) = n.val := by decide +kernel
  exact hall ⟨n, hn⟩

theorem readNumber_toDigits {n : Nat} (hn : n < 256) {rest : Str} (hrest : ∀ c ∈ rest.head?, toDigit 10 c = none) :
    readNumber 10 3 false 256 (Nat.toDigits 10 n ++ rest) = some (n, rest) := by
  obtain ⟨hdigits, hne, hlen, hzero, hvalue⟩ := toDigits_octet n hn
  have hstop : rest.takeWhile (fun c => (toDigit 10 c).isSome) = [] := by
    cases rest with
    | nil => rfl
    | cons c rest =>
      have hc : (toDigit 10 c).isSome = false := by rw [hrest c rfl]; rfl
      exact List.takeWhile_cons_of_neg (by rw [hc]; decide)
  have hrun : (Nat.toDigits 10 n ++ rest).takeWhile (fun c => (toDigit 10 c).isSome) = Nat.toDigits 10 n := by
    rw [List.takeWhile_append_of_pos (List.all_eq_true.1 hdigits), hstop, List.append_nil]
  have hhead : (Nat.toDigits 10 n ++ rest).head? = (Nat.toDigits 10 n).head? := List.head?_append_of_ne_nil _ hne
  unfold readNumber
  simp only
  rw [hrun, hhead, if_neg (by simp only [hne, false_or]; omega), if_neg (fun h => by have := hzero h.2.1; omega), hvalue,
    if_pos hn, List.drop_left]

theorem readOctet_toDigits {n : Nat} (hn : n < 256) {i : Nat} (hi : i ≠ 0) {rest : Str}
    (hrest : ∀ c ∈ rest.head?, toDigit 10 c = none) :
    readOctet i ('.' :: (Nat.toDigits 10 n ++ rest)) = some (n, rest) := by
  unfold readOctet readSeparator
  rw [if_neg hi]
  exact readNumber_toDigits hn hrest

/-- **The text of an IPv4 address reads back as the address.** -/
theorem parse_v4Text (bits : BitVec 32) : parse (v4Text bits) = some (v4 bits) := by
  have hdot : ∀ s : Str, ∀ c ∈ ('.' :: s).head?, toDigit 10 c = none := by
    intro s c hc
    rw [← Option.some.inj hc]
    decide
  have hend : ∀ c ∈ ([] : Str).head?, toDigit 10 c = none := fun c hc => by cases hc
  have hoctet : ∀ k, bits.toNat / 256 ^ k % 256 < 256 := fun k => Nat.mod_lt _ (by decide)
  have htext : v4Text bits = Nat.toDigits 10 (bits.toNat / 256 ^ 3 % 256) ++ '.' ::
      (Nat.toDigits 10 (bits.toNat / 256 ^ 2 % 256) ++ '.' :: (Nat.toDigits 10 (bits.toNat / 256 ^ 1 % 256) ++ '.' ::
        (Nat.toDigits 10 (bits.toNat / 256 ^ 0 % 256) ++ []))) := by
    simp [v4Text, join, List.range_succ, List.intercalate, List.intersperse]
  have hread : readIpv4Addr (v4Text bits) = some (bits, []) := by
    have hfirst : ∀ s, readOctet 0 s = readNumber 10 3 false 256 s := fun s => rfl
    have hvalue : ((bits.toNat / 256 ^ 3 % 256 * 256 + bits.toNat / 256 ^ 2 % 256) * 256 +
        bits.toNat / 256 ^ 1 % 256) * 256 + bits.toNat / 256 ^ 0 % 256 = bits.toNat := by
      have := bits.isLt
      omega
    unfold readIpv4Addr
    rw [htext, hfirst, readNumber_toDigits (hoctet 3) (hdot _)]
    simp only [Option.bind_eq_bind, Option.bind_some]
    rw [readOctet_toDigits (hoctet 2) (by decide) (hdot _)]
    simp only [Option.bind_some]
    rw [readOctet_toDigits (hoctet 1) (by decide) (hdot _)]
    simp only [Option.bind_some]
    rw [readOctet_toDigits (hoctet 0) (by decide) hend, Option.bind_some, hvalue, BitVec.ofNat_toNat, BitVec.setWidth_eq]
  unfold parse
  rw [hread]
  rfl

example : parse "::ffff:1.2.3.4".toList = some (v6 (BitVec.ofNat 128 0xffff01020304)) := by decide

end IpAddr

/-! ## Rules -/

namespace AccessControl

/-- `parse_net`: a block, or a bare address as the block of itself. -/
def parseNet (fromStr : Str → Option IpNet) (entry : Str) : Except Str IpNet :=
  match fromStr entry with
  | some net => .ok net
  | none =>
    match IpAddr.parse entry with
    | some (.v4 bits) => .ok (.v4 bits 32)
    | some (.v6 bits) => .ok (.v6 bits 128)
    | none => .error entry

def parseNets (fromStr : Str → Option IpNet) (entries : List Str) : Except Str (List IpNet) :=
  entries.mapM (parseNet fromStr)

def parse (fromStr : Str → Option IpNet) (allow deny : List Str) : Except Str AccessControl := do
  let allow ← parseNets fromStr allow
  let deny ← parseNets fromStr deny
  .ok ⟨allow, deny⟩

theorem parseNet_v4Text {fromStr : Str → Option IpNet} {bits : BitVec 32} (h : fromStr (IpAddr.v4Text bits) = none) :
    parseNet fromStr (IpAddr.v4Text bits) = .ok (.v4 bits 32) := by
  unfold parseNet
  rw [h, IpAddr.parse_v4Text]

end AccessControl

end Zaphyl
