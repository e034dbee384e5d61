import SpatialIde.Engine.Attributes
import SpatialIde.Engine.Cancel
import SpatialIde.Engine.Covering.Statistics
import SpatialIde.Engine.Identity.Readable
import SpatialIde.Engine.Index.Served
import SpatialIde.Engine.Lod.Kept
import SpatialIde.Engine.Lod.Written
import SpatialIde.Engine.Pool.Accounting
import SpatialIde.Engine.Predicate.Conjoined
import SpatialIde.Engine.Predicate.Exact
import SpatialIde.Engine.Predicate.Reordered
import SpatialIde.Engine.Query.Invisible
import SpatialIde.Engine.Query.Ranges
import SpatialIde.Engine.RowGroup.Lossless
import SpatialIde.Engine.Stream.Ceiling
import SpatialIde.Engine.Stream.Chunking
import SpatialIde.Engine.Stream.Estimate
import SpatialIde.Engine.Stream.Terminal
import SpatialIde.Engine.Wkb.Closure
import SpatialIde.Kernel.DatasetRef.Locators
import SpatialIde.Kernel.Params
import SpatialIde.Kernel.Permission.Audit.Accounts
import SpatialIde.Kernel.Permission.Audit.Log.Inside
import SpatialIde.Kernel.Permission.Audit.Log.Kept
import SpatialIde.Kernel.Permission.Boundary.Gated
import SpatialIde.Kernel.Permission.Grant.Lookup
import SpatialIde.Kernel.Publish.Partitions
import SpatialIde.Kernel.Publish.RedactionGate
import SpatialIde.Kernel.SessionHistory.Chained
import SpatialIde.Kernel.SessionHistory.Closed
import SpatialIde.Kernel.SessionHistory.Scan
import SpatialIde.Kernel.Skp.GenerationRegistry.Consistent
import SpatialIde.Kernel.Skp.StreamRegistry.SingleUse
import SpatialIde.Renderer.BundleViewer.Sha256.Digest
import SpatialIde.Renderer.BundleViewer.Topmost
import SpatialIde.Renderer.Style.Texts
import SpatialIde.Shell.App.ClauseIds
import SpatialIde.Shell.Canvas.HoverRepick
import SpatialIde.Shell.Canvas.Pick.Drawn
import SpatialIde.Shell.Canvas.TileGrid.Exact
import SpatialIde.Shell.Canvas.TileIngest.Ceiling
import SpatialIde.Shell.Publish.RunningPublishes
import SpatialIde.Shell.Publish.SingleUse
import SpatialIde.Shell.Skp.Codec
import SpatialIde.Shell.Streaming.AdapterWs
import SpatialIde.Shell.Streaming.ViewportStreamManager.Interleavings
import SpatialIde.Shell.Streaming.Wire.Chunks
import SpatialIde.Shell.Table.TableScope.Known
import SpatialIde.Shell.Workspace.FilterClauses.Combined
import SpatialIde.Shell.Workspace.StepRecorder
import SpatialIde.Shell.Workspace.WorkspaceState.Runs
