/-!
# How an execution can end badly

The build in `CMakeLists.txt` does not define `NDEBUG`, so a failed `assert` aborts the
process. The other faults are undefined behaviour in the source; a model run stops at the
first of them.
-/

namespace WebsocketCpp

/-- What stopped an execution. -/
inductive Fault where
  /-- An `assert` that fails, `assert(0)` included. -/
  | assertion
  /-- An access outside of the bytes received so far. -/
  | readPastEnd
  /-- An access outside of a buffer of the program. -/
  | writePastBuffer
  /-- A loop that has not come to its end in the iterations it was given. -/
  | running
  deriving DecidableEq, Repr

/-- What stopped an execution that works with objects on the heap. -/
inductive ObjectFault where
  /-- An `assert` that fails. -/
  | assertion
  /-- A pointer to an object that has been deleted. -/
  | useAfterFree
  /-- A null pointer that is followed. -/
  | nullPointer
  /-- An iterator at the end that is followed. -/
  | pastEnd
  deriving DecidableEq, Repr

end WebsocketCpp
