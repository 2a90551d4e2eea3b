import Mathlib.Init

/-!
Owns how a gRPC handler ends when it does not answer.
-/

namespace FProto.Protocol

/-- The codes the services answer with. -/
inductive StatusCode where
  | invalidArgument
  | notFound
  | failedPrecondition
  | resourceExhausted
  | unimplemented
  | internal
deriving DecidableEq

/-- An error with its code and message, or a panic. -/
inductive HandlerFailure (Text : Type) where
  | status (code : StatusCode) (message : Text)
  | panicked (text : Text)
deriving DecidableEq

end FProto.Protocol
