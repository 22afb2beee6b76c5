import Deskhand.Entries

/-!
# Platform faults

Why a desktop, a screen reader or an external operation did not do what it was asked for.
-/

namespace Deskhand

/-- A failure outside the interpreter. -/
inductive PlatformFault where
  | timeout (detail : String)
  | unsupported (detail : String)
  | invalidArgument (detail : String)
  | other (detail : String)
  deriving DecidableEq

def PlatformFault.message : PlatformFault → String
  | timeout detail => s!"Operation timed out: {detail}"
  | unsupported detail => s!"Unsupported operation: {detail}"
  | invalidArgument detail => s!"Invalid argument: {detail}"
  | other detail => s!"Platform-specific error: {detail}"

/-- What an operation that the interpreter does not know itself does when it is run. -/
inductive ExternalOp where
  /-- Binds the name in its `result` to null. -/
  | dryRun
  | fails (fault : PlatformFault)

end Deskhand
