import SpatialIde.Engine.Types
import SpatialIde.Renderer.Canonical

/-! # Refusals and failures of a publish -/

namespace SpatialIde.Kernel.Publish

open SpatialIde.Engine SpatialIde.Renderer

/-- Every way a publish can decline or break. -/
inductive PublishError where
  | destinationExists (path : String)
  | destinationNotWritable (path : String) (rawOsError : Option Int) (detail : String)
  | insufficientSpace (path : String) (rawOsError : Option Int) (detail : String)
  | io (context : String) (rawOsError : Option Int) (detail : String)
  | sourceNotPinned
  | licenseNotCarryable (declaredBy redistribution : String)
  | licenseDeclaredTwice (source operator : String)
  | operatorLicenseEmpty
  | viewerAssetPathRejected (path detail : String)
  | viewerLicenseIncomplete (member : String)
  | viewerLicenseNoticeMissing (noticePath bundleRelative : String) (available : List String)
  | correspondingSourceNotDurable (loc : String)
  | datasetNameRejected (name detail : String)
  | rowFilterNotRecordable
  | geographicCrsNotPublishable (crsIdentifier unitSource : String)
  | geometryEncodingNotPublishable (encoding carried : String)
  | sessionIdentityNotPublishable
  | redactionFinding (file cls : String) (byteOffset count : Nat)
  | ceilingExceeded (ceiling : String) (limit saw : Nat)
  | readerCeilingExceeded (ceiling : String) (limit predicted : Nat) (alternative : String)
  | cancelled
  /-- An operation ended badly and its staging directory could not be removed. -/
  | stagingNotRemoved (after : PublishError) (path detail : String)
  | engine (e : EngineError)
  /-- A refusal of the style compiler, by its text. -/
  | style (text : String)
  | canonical (e : CanonicalError)
  deriving DecidableEq, Repr

namespace PublishError

/-- What a failed cleanup is wrapped around. -/
def cause : PublishError → PublishError
  | stagingNotRemoved after _ _ => after.cause
  | e => e

/-- The gate said no, as opposed to a machine that broke. -/
inductive Declines : PublishError → Prop
  | destinationExists {path} : Declines (.destinationExists path)
  | sourceNotPinned : Declines .sourceNotPinned
  | licenseNotCarryable {by_ r} : Declines (.licenseNotCarryable by_ r)
  | licenseDeclaredTwice {s o} : Declines (.licenseDeclaredTwice s o)
  | operatorLicenseEmpty : Declines .operatorLicenseEmpty
  | viewerAssetPathRejected {p d} : Declines (.viewerAssetPathRejected p d)
  | viewerLicenseIncomplete {m} : Declines (.viewerLicenseIncomplete m)
  | viewerLicenseNoticeMissing {n b a} : Declines (.viewerLicenseNoticeMissing n b a)
  | correspondingSourceNotDurable {l} : Declines (.correspondingSourceNotDurable l)
  | datasetNameRejected {n d} : Declines (.datasetNameRejected n d)
  | rowFilterNotRecordable : Declines .rowFilterNotRecordable
  | geographicCrsNotPublishable {c u} : Declines (.geographicCrsNotPublishable c u)
  | geometryEncodingNotPublishable {e c} : Declines (.geometryEncodingNotPublishable e c)
  | sessionIdentityNotPublishable : Declines .sessionIdentityNotPublishable
  | redactionFinding {f c o n} : Declines (.redactionFinding f c o n)
  | ceilingExceeded {c l s} : Declines (.ceilingExceeded c l s)
  | readerCeilingExceeded {c l p a} : Declines (.readerCeilingExceeded c l p a)

end PublishError

end SpatialIde.Kernel.Publish
