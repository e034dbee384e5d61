import Mathlib.Tactic.TypeStar

/-! # Refusals of the shell-kernel protocol -/

namespace SpatialIde.Kernel.Skp

structure SkpError where
  code : String
  message : String
  fields : List (String × String)
  deriving DecidableEq, Repr

namespace SkpError

def protocol (name message : String) : SkpError := ⟨"skp." ++ name, message, []⟩

def protocolWithFields (name message : String) (fields : List (String × String)) : SkpError :=
  ⟨"skp." ++ name, message, fields⟩

def unknownDataset (handle : String) : SkpError :=
  protocolWithFields "unknown_dataset"
    ("no open dataset with handle `" ++ handle ++ "` (closed, or never opened this session)")
    [("handle", handle)]

def tooManyPendingStreams (limit : Nat) : SkpError :=
  protocolWithFields "too_many_pending_streams"
    ("declared ceiling MAX_PENDING_TICKETS=" ++ toString limit ++ " reached for this dataset")
    [("limit", toString limit)]

def sessionHistoryUnwritable (detail : String) : SkpError :=
  protocolWithFields "session_history_unwritable"
    ("this step could not be written and flushed to the session history: " ++ detail)
    [("detail", detail)]

def sessionHistoryFull (limit : Nat) : SkpError :=
  protocolWithFields "session_history_full"
    ("the session history is at its ceiling of " ++ toString limit ++ " bytes " ++
      "(MAX_SESSION_HISTORY_BYTES); this step was not written")
    [("limit", toString limit)]

def sessionHistoryStopped : SkpError :=
  protocol "session_history_stopped"
    "this session history takes no more steps: an earlier write to it failed"

def stepLineOverCeiling (saw limit : Nat) : SkpError :=
  protocolWithFields "step_line_over_ceiling"
    ("this step's line would be " ++ toString saw ++ " bytes, over its ceiling of " ++
      toString limit ++ " (MAX_STEP_LINE_BYTES); it was not written")
    [("saw", toString saw), ("limit", toString limit)]

end SkpError

end SpatialIde.Kernel.Skp
