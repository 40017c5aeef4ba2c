/-!
This module contains the reasons for which an operation is aborted. Errors are answers; an abort is
none, and leaves everything as it was.
-/

namespace ResponseCache

/-- What has left the range in which it can be expressed. -/
inductive Abort where
  /-- A point in time to which a duration was added. -/
  | time
  /-- A duration whose nanoseconds were carried over. -/
  | duration
  /-- The date of a point in time. -/
  | date
  deriving DecidableEq, Repr

def Abort.message : Abort → String
  | .time => "overflow when adding duration to `SystemTime`"
  | .duration => "overflow in Duration::new"
  | .date => "No such local time"

end ResponseCache
