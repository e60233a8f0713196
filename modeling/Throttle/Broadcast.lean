/-!
A channel that never waits for its listeners. It keeps the newest messages, as many as its
capacity; a listener that falls further behind learns how many it missed and goes on with the
oldest that is kept.
-/

namespace Throttle

/-- The messages of a channel that are still kept. -/
structure Broadcast (α : Type) where
  capacity : Nat
  /-- How many messages there were so far. -/
  sent : Nat
  /-- The newest first. -/
  kept : List α

namespace Broadcast

/-- A channel whose capacity is the next power of two. -/
def new (capacity : Nat) : Broadcast α := ⟨capacity.nextPowerOfTwo, 0, []⟩

def send (b : Broadcast α) (a : α) : Broadcast α :=
  { b with sent := b.sent + 1, kept := (a :: b.kept).take b.capacity }

/-- How many messages a listener has missed that has seen the first `seen`. -/
def missed (b : Broadcast α) (seen : Nat) : Nat := b.sent - b.kept.length - seen

/-- The messages that such a listener can still get, the oldest first. -/
def rest (b : Broadcast α) (seen : Nat) : List α := (b.kept.take (b.sent - seen)).reverse

end Broadcast

end Throttle
