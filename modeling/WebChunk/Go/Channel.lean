/-!
# Buffered channels

The observable state of a Go channel: the values in its buffer, oldest first, and
whether it was closed. A send or a receive that has to wait is reported as blocked;
a send on a closed channel and a second close are the two run-time panics of a
channel.
-/

namespace WebChunk.Go

universe u

/-- A channel made by `make(chan α, capacity)`. -/
structure Chan (α : Type u) where
  buffer : List α
  capacity : Nat
  closed : Bool

/-- What `c <- v` does at once. -/
inductive Send (α : Type u) where
  | blocked
  | panics
  | sent (after : Chan α)

/-- What `v, ok := <-c` does at once; `drained` is the answer `ok = false`. -/
inductive Receive (α : Type u) where
  | blocked
  | drained
  | received (value : α) (after : Chan α)

namespace Chan

variable {α : Type u}

/-- A fresh channel. -/
def make (capacity : Nat) : Chan α := ⟨[], capacity, false⟩

/-- The capacity that `make(chan α, size)` gives a channel. It panics if the size is negative
or more than `limit`, the size for which there is an address space. -/
def makeSize (limit : Nat) (size : Int) : Option Nat :=
  if 0 ≤ size ∧ size ≤ limit then some size.toNat else none

/-- Send one value: a closed channel panics even when there is room. -/
def send (c : Chan α) (value : α) : Send α :=
  if c.closed then .panics
  else if c.buffer.length < c.capacity then .sent { c with buffer := c.buffer ++ [value] }
  else .blocked

/-- Receive one value: a closed channel still yields what it buffers. -/
def receive (c : Chan α) : Receive α :=
  match c.buffer with
  | value :: rest => .received value { c with buffer := rest }
  | [] => if c.closed then .drained else .blocked

/-- Closing leaves the buffered values to the receivers. The caller checks
`closed` first: closing twice panics. -/
def close (c : Chan α) : Chan α := { c with closed := true }

/-- A send would block. -/
def full (c : Chan α) : Bool := !c.closed && decide (c.capacity ≤ c.buffer.length)

/-- A sender passes its value straight to a receiver that waits, past the empty buffer. A
channel without a capacity passes its values in this way only. -/
def direct (c : Chan α) : Bool := !c.closed && c.buffer.isEmpty

/-- The next send fills the channel. -/
def lastPlace (c : Chan α) : Bool := !c.closed && c.buffer.length + 1 == c.capacity

@[simp] theorem make_buffer (capacity : Nat) : (make capacity : Chan α).buffer = [] := rfl
@[simp] theorem make_closed (capacity : Nat) : (make capacity : Chan α).closed = false := rfl
@[simp] theorem close_buffer (c : Chan α) : c.close.buffer = c.buffer := rfl
@[simp] theorem close_closed (c : Chan α) : c.close.closed = true := rfl

/-- A send panics exactly on a closed channel. -/
theorem send_panics_iff {c : Chan α} {value : α} : c.send value = .panics ↔ c.closed = true := by
  unfold send
  split
  · simp_all
  · split <;> simp_all

/-- A send that goes through finds an open channel and appends to its buffer. -/
theorem send_sent {c after : Chan α} {value : α} (sent : c.send value = .sent after) :
    c.closed = false ∧ after = { c with buffer := c.buffer ++ [value] } := by
  unfold send at sent
  split at sent
  · cases sent
  · rename_i isOpen
    split at sent
    · cases sent
      exact ⟨by simpa using isOpen, rfl⟩
    · cases sent

/-- A send blocks exactly on an open channel without room. -/
theorem send_blocked_iff {c : Chan α} {value : α} :
    c.send value = .blocked ↔ c.closed = false ∧ c.capacity ≤ c.buffer.length := by
  unfold send
  split
  · simp_all
  · split <;> simp_all

theorem direct_iff {c : Chan α} : c.direct = true ↔ c.closed = false ∧ c.buffer = [] := by
  simp [direct]

theorem full_iff {c : Chan α} :
    c.full = true ↔ c.closed = false ∧ c.capacity ≤ c.buffer.length := by
  simp [full]

/-- Sending fills the channel exactly if it takes the last place. -/
theorem full_of_sent {c after : Chan α} {value : α} (sent : c.send value = .sent after) :
    after.full = c.lastPlace := by
  unfold send at sent
  split at sent
  · cases sent
  · split at sent
    · cases sent
      simp only [full, lastPlace, List.length_append, List.length_singleton]
      congr 1
      rw [Bool.eq_iff_iff, decide_eq_true_iff, beq_iff_eq]
      omega
    · cases sent

/-- A receive blocks exactly on an open channel that buffers nothing. -/
theorem receive_blocked_iff {c : Chan α} :
    c.receive = .blocked ↔ c.buffer = [] ∧ c.closed = false := by
  unfold receive
  split
  · simp_all
  · split <;> simp_all

/-- A receive takes the oldest buffered value. -/
theorem receive_received {c after : Chan α} {value : α}
    (received : c.receive = .received value after) :
    c.buffer = value :: after.buffer ∧ after.closed = c.closed := by
  unfold receive at received
  split at received
  · rename_i equation
    cases received
    exact ⟨equation, rfl⟩
  · split at received <;> cases received

/-- A receive takes the oldest value and leaves the others. -/
theorem receive_takes {c after : Chan α} {value : α}
    (received : c.receive = .received value after) :
    ∃ rest, c.buffer = value :: rest ∧ after = { c with buffer := rest } := by
  unfold receive at received
  split at received
  · rename_i rest equation
    cases received
    exact ⟨rest, equation, rfl⟩
  · split at received <;> cases received

/-- Only a closed channel is drained. -/
theorem receive_drained {c : Chan α} (drained : c.receive = .drained) : c.closed = true := by
  unfold receive at drained
  split at drained
  · cases drained
  · split at drained
    · assumption
    · cases drained

theorem buffer_drained {c : Chan α} (drained : c.receive = .drained) : c.buffer = [] := by
  unfold receive at drained
  split at drained
  · cases drained
  · assumption

theorem receive_capacity {c after : Chan α} {value : α}
    (received : c.receive = .received value after) : after.capacity = c.capacity := by
  unfold receive at received
  split at received
  · cases received
    rfl
  · split at received <;> cases received

/-- A send keeps the buffer within the capacity. -/
theorem sent_bounded {c after : Chan α} {value : α} (sent : c.send value = .sent after) :
    after.buffer.length ≤ after.capacity := by
  unfold send at sent
  split at sent
  · cases sent
  · split at sent
    · cases sent
      rw [List.length_append, List.length_singleton]
      assumption
    · cases sent

theorem received_bounded {c after : Chan α} {value : α}
    (received : c.receive = .received value after) (bounded : c.buffer.length ≤ c.capacity) :
    after.buffer.length ≤ after.capacity := by
  rw [(receive_received received).1, List.length_cons] at bounded
  rw [receive_capacity received]
  omega

/-- After a receive there is room. -/
theorem not_full_of_received {c after : Chan α} {value : α}
    (received : c.receive = .received value after) (bounded : c.buffer.length ≤ c.capacity) :
    after.full = false := by
  rw [(receive_received received).1, List.length_cons] at bounded
  rw [Bool.eq_false_iff, Ne, full_iff, receive_capacity received]
  omega

end Chan

end WebChunk.Go
