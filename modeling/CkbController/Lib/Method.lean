import CkbController.Lib.Checks

/-!
# Mutating methods that can fail

A method `fn f(&mut self) -> Result<α, ε>`: an early return through `?` leaves the object as it
is at that point, nothing is rolled back. `Method.call` runs one on an object and gives both the
result and the object afterwards; the lemmas run the pieces a method body is made of, so that
what a method does on each of its paths is read off its body.
-/

/-- `fn f(&mut self) -> Result<α, ε>` on an object of type `σ`. -/
abbrev Method (σ ε α : Type) := ExceptT ε (StateM σ) α

namespace Method

variable {σ ε α β : Type}

def call (m : Method σ ε α) (s : σ) : Except ε α × σ := m.run s

def self : Method σ ε σ := get

def put (s : σ) : Method σ ε Unit := set s

/-- `x?` on a value computed without the object. -/
def lift (x : Except ε α) : Method σ ε α := ExceptT.mk (pure x)

/-- Reading the object gives its state to what follows. -/
theorem call_self_bind (f : σ → Method σ ε β) (s : σ) : (self >>= f).call s = (f s).call s := rfl

/-- A result that is at hand leaves the object alone. -/
theorem call_lift_ok_bind (a : α) (f : α → Method σ ε β) (s : σ) :
    (lift (.ok a) >>= f).call s = (f a).call s := rfl

/-- After an error the rest of the body does not run. -/
theorem call_lift_error_bind (e : ε) (f : α → Method σ ε β) (s : σ) :
    (lift (.error e) >>= f).call s = (.error e, s) := rfl

/-- Writing the object replaces its state for what follows. -/
theorem call_put_bind (t : σ) (f : Unit → Method σ ε β) (s : σ) :
    (put t >>= f).call s = (f ()).call t := rfl

theorem call_put (s t : σ) : call (put t : Method σ ε Unit) s = (.ok (), t) := rfl

theorem call_pure (a : α) (s : σ) : call (pure a : Method σ ε α) s = (.ok a, s) := rfl

end Method
