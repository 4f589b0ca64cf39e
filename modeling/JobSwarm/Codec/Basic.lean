import JobSwarm.Engine.Basic

/-!
# Codecs

A codec turns the bytes of a target into those of an output. While it is at work it tells how far it
is, and at checkpoints it asks whether it may go on.
-/

namespace JobSwarm.Codec

/-- How a codec ends (`CodecError`). -/
inductive Ending where
  | completed (bytesProcessed : UInt64)
  | interrupted
  | failed (reason : String)
  | io (reason : String)
  | panicked
  deriving DecidableEq, Repr

/-- What the end of a codec means for its run. -/
def Ending.outcome (codec : String) : Ending → Engine.Outcome
  | .completed bytes => .completed bytes
  | .interrupted => .failed "interrupted"
  | .failed reason => .failed reason
  | .io reason => .failed ("io error: " ++ reason)
  | .panicked => .failed ("codec " ++ codec ++ " panicked")

/-- What a codec does. -/
inductive Action where
  | setTotal (bytes : UInt64)
  | advance (bytes : UInt64)
  | askCancelled
  | checkpoint
  | finish (ending : Ending)
  deriving DecidableEq, Repr

/-- What a codec is told. -/
inductive Reply where
  | noted
  | cancelled (flag : Bool)
  | passed
  | interrupted
  | blocked
  deriving DecidableEq, Repr

end JobSwarm.Codec
