import Mathlib.Data.List.Basic
/-!
# Checks — validations that stop at the first error

A validation runs checks in order and answers the first error.  It succeeds exactly when every check does, which turns
a validator into the conjunction of its conditions.
-/
namespace Checks

variable {ε α β : Type}

theorem bind_eq_ok {x : Except ε α} {f : α → Except ε β} {b : β} :
    x >>= f = .ok b ↔ ∃ a, x = .ok a ∧ f a = .ok b := by
  cases x with
  | error e =>
    constructor
    · intro h
      cases h
    · rintro ⟨a, h, -⟩
      cases h
  | ok a =>
    constructor
    · exact fun h => ⟨a, rfl, h⟩
    · rintro ⟨a', h, hf⟩
      cases h
      exact hf

/-- What is read of every element stands in the elements' order. -/
theorem forall₂_of_mapM {f : α → Except ε β} : ∀ {l : List α} {out : List β}, l.mapM f = .ok out →
    List.Forall₂ (fun a b => f a = .ok b) l out
  | [], out, h => by
    cases h
    exact .nil
  | a :: l, out, h => by
    rw [List.mapM_cons] at h
    obtain ⟨b, hb, h⟩ := bind_eq_ok.1 h
    obtain ⟨rest, hrest, h⟩ := bind_eq_ok.1 h
    cases h
    exact .cons hb (forall₂_of_mapM hrest)

def ensure (bad : Bool) (e : ε) : Except ε Unit := if bad then .error e else .ok ()

@[simp] theorem ensure_eq_ok {bad : Bool} {e : ε} : ensure bad e = .ok () ↔ bad = false := by
  cases bad <;> simp [ensure]

def inOrder : List (Except ε Unit) → Except ε Unit
  | [] => .ok ()
  | c :: cs => c >>= fun _ => inOrder cs

@[simp] theorem inOrder_nil : inOrder ([] : List (Except ε Unit)) = .ok () := rfl

@[simp] theorem inOrder_cons_eq_ok {c : Except ε Unit} {cs : List (Except ε Unit)} :
    inOrder (c :: cs) = .ok () ↔ c = .ok () ∧ inOrder cs = .ok () := by
  rw [inOrder, bind_eq_ok]
  exact ⟨fun ⟨_, h, hcs⟩ => ⟨h, hcs⟩, fun ⟨h, hcs⟩ => ⟨(), h, hcs⟩⟩

def each (check : Nat → α → Except ε Unit) : Nat → List α → Except ε Unit
  | _, [] => .ok ()
  | i, a :: as => check i a >>= fun _ => each check (i + 1) as

theorem each_eq_ok {check : Nat → α → Except ε Unit} {P : α → Prop} (h : ∀ i a, check i a = .ok () ↔ P a) :
    ∀ (i : Nat) (l : List α), each check i l = .ok () ↔ ∀ a ∈ l, P a
  | i, [] => by simp [each]
  | i, a :: as => by
    unfold each
    rw [bind_eq_ok, List.forall_mem_cons, ← h i a, ← each_eq_ok h (i + 1) as]
    exact ⟨fun ⟨_, ha, has⟩ => ⟨ha, has⟩, fun ⟨ha, has⟩ => ⟨(), ha, has⟩⟩

/-! ## The errors of a validation -/

/-- Every error that a check can end with has a property. -/
def FailsWith (P : ε → Prop) (check : Except ε Unit) : Prop := ∀ e, check = .error e → P e

variable {P : ε → Prop}

theorem failsWith_ok : FailsWith P (.ok ()) := fun _ h => by cases h

theorem failsWith_ensure {bad : Bool} {e : ε} (h : P e) : FailsWith P (ensure bad e) := by
  intro e' he
  cases bad with
  | false => cases he
  | true =>
    cases he
    exact h

theorem failsWith_bind {c : Except ε Unit} {next : Except ε Unit} (hc : FailsWith P c) (hnext : FailsWith P next) :
    FailsWith P (c >>= fun _ => next) := by
  cases c with
  | error e => exact hc
  | ok _ => exact hnext

/-- **Checks in order fail with what one of them fails with.** -/
theorem failsWith_inOrder {checks : List (Except ε Unit)} (h : ∀ c ∈ checks, FailsWith P c) :
    FailsWith P (inOrder checks) := by
  induction checks with
  | nil => exact failsWith_ok
  | cons c checks ih =>
    exact failsWith_bind (h c List.mem_cons_self) (ih (fun d hd => h d (List.mem_cons_of_mem c hd)))

theorem failsWith_each {check : Nat → α → Except ε Unit} (h : ∀ i a, FailsWith P (check i a)) (i : Nat) (l : List α) :
    FailsWith P (each check i l) := by
  induction l generalizing i with
  | nil => exact failsWith_ok
  | cons a l ih => exact failsWith_bind (h i a) (ih (i + 1))

end Checks
