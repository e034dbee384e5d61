import SpatialIde.Shell.Streaming.Wire

/-! # The tickets of the live dataset session

A ticket is admitted when it is minted and leaves when its stream ends, or with all others when the
session does.
-/

namespace SpatialIde.Shell.Streaming

structure Terminal where
  kind : TerminalKind
  detail : String
  deriving DecidableEq, Repr

/-- Where the data plane is, and the token to present there. -/
structure DataPlaneAttach where
  url : String
  subprotocols : String × String
  deriving DecidableEq, Repr

def SOURCE_CHANGED_CODE : String := "engine.source_changed"

def SOURCE_COVERAGE_LOST_CODE : String := "engine.source_coverage_lost"

/-- The detail of a terminal starts with the code of what ended it. -/
def isSessionEndedTerminal (terminal : Terminal) : Bool :=
  (SOURCE_CHANGED_CODE ++ ": ").toList.isPrefixOf terminal.detail.toList ||
    (SOURCE_COVERAGE_LOST_CODE ++ ": ").toList.isPrefixOf terminal.detail.toList

structure LiveTicketSet where
  live : Finset String
  deriving DecidableEq

namespace LiveTicketSet

def new : LiveTicketSet := ⟨∅⟩

def admitTicket (s : LiveTicketSet) (handle : String) : LiveTicketSet := ⟨insert handle s.live⟩

def isLive (s : LiveTicketSet) (handle : String) : Bool := handle ∈ s.live

def retire (s : LiveTicketSet) (handle : String) : LiveTicketSet := ⟨s.live.erase handle⟩

def invalidate (_ : LiveTicketSet) : LiveTicketSet := ⟨∅⟩

end LiveTicketSet

end SpatialIde.Shell.Streaming
