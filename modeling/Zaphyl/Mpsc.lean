import Mathlib.Data.List.Basic
/-!
# Mpsc — bounded channels of one sender and one receiver

A channel keeps all that was sent and how much of it was received.  What waits is the rest, never more than the
capacity, so that values are received once each and in the order they were sent.
-/
namespace Mpsc

structure Chan (α : Type*) (capacity : Nat) where
  sent : List α
  received : Nat
  senderAlive : Bool
  receiverAlive : Bool
  received_le : received ≤ sent.length
  fits : sent.length ≤ received + capacity

namespace Chan

variable {α : Type*} {capacity : Nat}

def new : Chan α capacity := ⟨[], 0, true, true, Nat.le_refl _, Nat.zero_le _⟩

/-- What was received, in order. -/
def taken (c : Chan α capacity) : List α := c.sent.take c.received

/-- What was sent and not received. -/
def waiting (c : Chan α capacity) : List α := c.sent.drop c.received

def HasRoom (c : Chan α capacity) : Prop := c.sent.length < c.received + capacity

instance (c : Chan α capacity) : Decidable c.HasRoom := inferInstanceAs (Decidable (_ < _))

/-- Both ends are there and one more value fits. -/
def permits (c : Chan α capacity) : Bool := c.receiverAlive && decide c.HasRoom

def send (c : Chan α capacity) (a : α) (h : c.HasRoom) : Chan α capacity where
  sent := c.sent ++ [a]
  received := c.received
  senderAlive := c.senderAlive
  receiverAlive := c.receiverAlive
  received_le := by
    rw [List.length_append]
    exact Nat.le_add_right_of_le c.received_le
  fits := by
    rw [List.length_append]
    exact h

/-- The first value that waits is received. -/
def recv (c : Chan α capacity) : Option (α × Chan α capacity) :=
  if h : c.received < c.sent.length then
    some (c.sent.get ⟨c.received, h⟩,
      { c with received := c.received + 1, received_le := h, fits := by have := c.fits; omega })
  else none

/-- All that waits is received. -/
def recvAll (c : Chan α capacity) : Chan α capacity :=
  { c with received := c.sent.length, received_le := Nat.le_refl _, fits := Nat.le_add_right _ _ }

def dropSender (c : Chan α capacity) : Chan α capacity := { c with senderAlive := false }

def dropReceiver (c : Chan α capacity) : Chan α capacity := { c with receiverAlive := false }

theorem taken_append_waiting (c : Chan α capacity) : c.taken ++ c.waiting = c.sent :=
  List.take_append_drop _ _

theorem taken_prefix (c : Chan α capacity) : c.taken <+: c.sent := List.take_prefix _ _

theorem taken_eq_sent {c : Chan α capacity} (h : c.waiting = []) : c.taken = c.sent := by
  rw [← c.taken_append_waiting, h, List.append_nil]

theorem length_waiting (c : Chan α capacity) : c.waiting.length = c.sent.length - c.received := List.length_drop

theorem hasRoom_iff (c : Chan α capacity) : c.HasRoom ↔ c.waiting.length < capacity := by
  unfold HasRoom
  rw [length_waiting]
  have := c.received_le
  omega

/-- **A channel with nothing waiting has room.** -/
theorem hasRoom_of_waiting_nil {c : Chan α capacity} (hpos : 0 < capacity) (h : c.waiting = []) : c.HasRoom := by
  rw [hasRoom_iff, h]
  exact hpos

section

variable (c : Chan α capacity)

@[simp] theorem sent_new : (new : Chan α capacity).sent = [] := rfl
@[simp] theorem taken_new : (new : Chan α capacity).taken = [] := rfl
@[simp] theorem waiting_new : (new : Chan α capacity).waiting = [] := rfl
@[simp] theorem receiverAlive_new : (new : Chan α capacity).receiverAlive = true := rfl
@[simp] theorem senderAlive_new : (new : Chan α capacity).senderAlive = true := rfl

@[simp] theorem sent_send (a : α) (h : c.HasRoom) : (c.send a h).sent = c.sent ++ [a] := rfl
@[simp] theorem senderAlive_send (a : α) (h : c.HasRoom) : (c.send a h).senderAlive = c.senderAlive := rfl
@[simp] theorem receiverAlive_send (a : α) (h : c.HasRoom) : (c.send a h).receiverAlive = c.receiverAlive := rfl

@[simp] theorem taken_send (a : α) (h : c.HasRoom) : (c.send a h).taken = c.taken :=
  List.take_append_of_le_length c.received_le

@[simp] theorem waiting_send (a : α) (h : c.HasRoom) : (c.send a h).waiting = c.waiting ++ [a] :=
  List.drop_append_of_le_length c.received_le

@[simp] theorem sent_recvAll : c.recvAll.sent = c.sent := rfl
@[simp] theorem senderAlive_recvAll : c.recvAll.senderAlive = c.senderAlive := rfl
@[simp] theorem receiverAlive_recvAll : c.recvAll.receiverAlive = c.receiverAlive := rfl
@[simp] theorem taken_recvAll : c.recvAll.taken = c.sent := List.take_length
@[simp] theorem waiting_recvAll : c.recvAll.waiting = [] := List.drop_length

@[simp] theorem sent_dropSender : c.dropSender.sent = c.sent := rfl
@[simp] theorem taken_dropSender : c.dropSender.taken = c.taken := rfl
@[simp] theorem waiting_dropSender : c.dropSender.waiting = c.waiting := rfl
@[simp] theorem senderAlive_dropSender : c.dropSender.senderAlive = false := rfl
@[simp] theorem receiverAlive_dropSender : c.dropSender.receiverAlive = c.receiverAlive := rfl

@[simp] theorem sent_dropReceiver : c.dropReceiver.sent = c.sent := rfl
@[simp] theorem taken_dropReceiver : c.dropReceiver.taken = c.taken := rfl
@[simp] theorem waiting_dropReceiver : c.dropReceiver.waiting = c.waiting := rfl
@[simp] theorem senderAlive_dropReceiver : c.dropReceiver.senderAlive = c.senderAlive := rfl
@[simp] theorem receiverAlive_dropReceiver : c.dropReceiver.receiverAlive = false := rfl

end

/-- **A receive takes the first value that waits**, and leaves what was sent and who is there. -/
theorem recv_eq_some {c c' : Chan α capacity} {a : α} (h : c.recv = some (a, c')) :
    c'.taken = c.taken ++ [a] ∧ c.waiting = a :: c'.waiting ∧ c'.sent = c.sent ∧
      c'.senderAlive = c.senderAlive ∧ c'.receiverAlive = c.receiverAlive := by
  unfold recv at h
  split at h
  · rename_i hlt
    cases h
    exact ⟨List.take_succ_eq_append_getElem hlt, List.drop_eq_getElem_cons hlt, rfl, rfl, rfl⟩
  · cases h

theorem recv_eq_none_iff (c : Chan α capacity) : c.recv = none ↔ c.waiting = [] := by
  unfold recv waiting
  rw [List.drop_eq_nil_iff]
  split
  · rename_i hlt
    exact iff_of_false (fun h => by cases h) (by omega)
  · rename_i hle
    exact iff_of_true rfl (by omega)

end Chan

end Mpsc
