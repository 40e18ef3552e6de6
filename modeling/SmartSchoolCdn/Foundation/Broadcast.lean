import Mathlib.Data.Nat.Basic
import Mathlib.Order.Basic

/-!
# Broadcast channels

A channel with a bounded buffer, of which every receiver gets each message that is sent after it
has subscribed.  A receiver that has fallen behind by more messages than the buffer holds is told
so instead, and one that has received everything of a closed channel is told that it is closed.
-/

namespace Broadcast

universe u

/-- A channel: the number of messages that its buffer holds, the messages sent so far, and
whether all senders are gone. -/
structure Channel (μ : Type u) where
  capacity : ℕ
  sent : List μ
  closed : Bool

/-- What a receiver gets. -/
inductive Received (μ : Type u)
  | message (m : μ)
  | lagged (skipped : ℕ)
  | closed
  deriving DecidableEq

namespace Channel

variable {μ : Type u} {c : Channel μ} {m : μ} {next : ℕ}

/-- A channel without messages. -/
def new (capacity : ℕ) : Channel μ := { capacity := capacity, sent := [], closed := false }

def send (c : Channel μ) (m : μ) : Channel μ := { c with sent := c.sent ++ [m] }

def close (c : Channel μ) : Channel μ := { c with closed := true }

/-- The position of a new receiver. -/
def position (c : Channel μ) : ℕ := c.sent.length

/-- What a receiver gets that has received the messages before `next`; nothing yet while it has
to wait. -/
def receive (c : Channel μ) (next : ℕ) : Option (Received μ) :=
  match c.sent[next]? with
  | some m => if c.sent.length - next > c.capacity then some (.lagged (c.sent.length - next - c.capacity))
    else some (.message m)
  | none => if c.closed then some .closed else none

/-- A receiver that has subscribed before the only message receives that message. -/
theorem receive_only (hsent : c.sent = [m]) (hcapacity : 1 ≤ c.capacity) :
    c.receive 0 = some (.message m) := by
  have hnot : ¬ c.sent.length - 0 > c.capacity := by
    rw [hsent, List.length_singleton]
    omega
  have hfirst : c.sent[0]? = some m := by
    rw [hsent]
    rfl
  simp only [receive, hfirst]
  exact if_neg hnot

/-- A receiver of a closed channel without messages is told so. -/
theorem receive_empty (hsent : c.sent = []) : c.receive 0 = if c.closed then some .closed else none := by
  simp [receive, hsent]

end Channel

end Broadcast
