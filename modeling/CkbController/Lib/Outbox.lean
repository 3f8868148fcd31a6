import Mathlib.Data.List.Flatten

/-!
# Outboxes

Items are pushed one at a time and leave in batches: closing the box labels everything that is
pending as one batch. Whatever the labels mean, `items` is the sequence of all pushes, cut into
consecutive batches and the pending rest, so no item is lost, repeated or moved.
-/

structure Outbox (α δ : Type _) where
  closed : List (δ × List α)
  pending : List α

namespace Outbox

variable {α δ : Type _}

def push (box : Outbox α δ) (a : α) : Outbox α δ := { box with pending := box.pending ++ [a] }

def close (box : Outbox α δ) (d : δ) : Outbox α δ where
  closed := box.closed ++ [(d, box.pending)]
  pending := []

/-- Every item, in the order of the pushes. -/
def items (box : Outbox α δ) : List α := box.closed.flatMap Prod.snd ++ box.pending

/-- What is pushed goes to the end. -/
@[simp] theorem items_push (box : Outbox α δ) (a : α) : (box.push a).items = box.items ++ [a] := by
  unfold items push
  rw [List.append_assoc]

/-- Closing a batch moves items, and loses none. -/
@[simp] theorem items_close (box : Outbox α δ) (d : δ) : (box.close d).items = box.items := by
  simp [items, close]

end Outbox
