import Mathlib.Data.Int.Init

/-!
# Optimistic counters

A client numbers its own requests ahead of the answers: it adds one to its counter when it sends a
request and takes the one back when the request fails. The server counts the requests it has
performed. The two are in step when the client's counter is what the server has performed plus what
is outstanding; `drift` is the distance from that.

* `drift_send`, `drift_perform`, `drift_takeBack` — the protocol alone never drifts;
* `drift_set` — overwriting the counter sets the drift, whatever it was before;
* `set_inStep_iff` — a value the server has had is the right one exactly if it is the latest and
  nothing is outstanding.
-/

namespace Optimistic

structure Counter where
  value : Int
  /-- Requests the server has performed. -/
  performed : Nat
  /-- Requests that were sent and are neither performed nor taken back. -/
  outstanding : Nat

namespace Counter

def start (performed : Nat) : Counter := ⟨0, performed, 0⟩

def send (c : Counter) : Counter :=
  { c with value := c.value + 1, outstanding := c.outstanding + 1 }

def perform (c : Counter) : Counter :=
  { c with performed := c.performed + 1, outstanding := c.outstanding - 1 }

def takeBack (c : Counter) : Counter :=
  { c with value := c.value - 1, outstanding := c.outstanding - 1 }

def set (c : Counter) (value : Int) : Counter := { c with value }

def drift (c : Counter) : Int := c.value - (c.performed + c.outstanding)

def InStep (c : Counter) : Prop := c.drift = 0

/-- Counting a request when it is sent keeps the drift. -/
theorem drift_send (c : Counter) : c.send.drift = c.drift := by
  simp only [drift, send]
  omega

/-- A request that the server performs keeps the drift: it is no longer outstanding. -/
theorem drift_perform {c : Counter} (h : 0 < c.outstanding) : c.perform.drift = c.drift := by
  simp only [drift, perform]
  omega

/-- A request that is taken back keeps the drift. -/
theorem drift_takeBack {c : Counter} (h : 0 < c.outstanding) : c.takeBack.drift = c.drift := by
  simp only [drift, takeBack]
  omega

/-- Overwriting the count makes the drift anew. -/
theorem drift_set (c : Counter) (value : Int) :
    (c.set value).drift = value - (c.performed + c.outstanding) := rfl

/-- With nothing outstanding, in step means equal. -/
theorem value_eq_iff {c : Counter} (h : c.outstanding = 0) :
    c.value = c.performed ↔ c.InStep := by
  unfold InStep drift
  omega

/-- Reading a value the server has had. -/
theorem set_inStep_iff {c : Counter} {read : Nat} (h : read ≤ c.performed) :
    (c.set read).InStep ↔ c.outstanding = 0 ∧ read = c.performed := by
  unfold InStep
  rw [drift_set]
  omega

end Counter

end Optimistic
