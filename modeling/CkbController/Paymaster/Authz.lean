import CkbController.Ckb.Transaction

/-!
# The capability gate

A relayer sponsors only clients that present a sponsor token: a signed, scoped, expiring
capability. `Gate` is the seam between the relay logic and the token format. Nothing above this
module looks inside a token.
-/

namespace CkbController.Paymaster

open ByteCodec

/-- What a token authorizes, whom, and the unix second after which it no longer does. -/
structure Capability where
  scope : String
  subject : String
  notAfter : U64
deriving DecidableEq, Repr

inductive AuthzError where
  | malformed
  | badSignature
  | wrongScope
  | expired
  | denied
deriving DecidableEq, Repr

structure Gate where
  authorize : (token : Bytes) → (now : U64) → (requiredScope : String) →
    Except AuthzError Capability

end CkbController.Paymaster
