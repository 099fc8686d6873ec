import PointCloud.Box.Text
import PointCloud.Compression
import PointCloud.Options.Assign
import PointCloud.Table.Buffer
import PointCloud.Writer
import PointCloud.Proofs.Results
import PointCloud.Proofs.Writer.Calls
import PointCloud.Proofs.Points.Encoding
import PointCloud.Proofs.Points.Batches
import PointCloud.Proofs.Writer.Opening
import PointCloud.Proofs.Writer.Tallies
import PointCloud.Proofs.Writer.Runs
import PointCloud.Proofs.Writer.Keeping
import PointCloud.Proofs.Writer.Finishing
import PointCloud.Proofs.Writer.FileLayout
import PointCloud.Proofs.Writer.Cuts
import PointCloud.Proofs.Records.Granted
import PointCloud.Proofs.Records.References
import PointCloud.Proofs.Records.Walk
import PointCloud.Proofs.Writer.FileRecords
import PointCloud.Proofs.Records.Texts
import PointCloud.Proofs.Records.Descriptors
import PointCloud.Proofs.Points.AnyDevice
import PointCloud.Proofs.Points.Places
import PointCloud.Proofs.Device.Watched
import PointCloud.Proofs.Device.Replay
import PointCloud.Proofs.Writer.Steps
import PointCloud.Proofs.Writer.Lifecycle
import PointCloud.Proofs.Writer.Course
import PointCloud.Proofs.Writer.Contents
import PointCloud.Proofs.Writer.Offsets
import PointCloud.Proofs.Writer.Rejections
import PointCloud.Proofs.Writer.ExtraDimensions
import PointCloud.Proofs.Writer.Embedding
import PointCloud.Proofs.Coordinates.Extremes
import PointCloud.Proofs.Coordinates.Finite
import PointCloud.Proofs.Points.Returns
import PointCloud.Proofs.Writer.Written
import PointCloud.Proofs.Writer.Bounds
import PointCloud.Proofs.Writer.Histogram
import PointCloud.Proofs.Writer.Discarding
import PointCloud.Proofs.Records.Feasible
import PointCloud.Proofs.Writer.Omissions
import PointCloud.Proofs.Writer.Continuing
import PointCloud.Proofs.Writer.Acceptance
import PointCloud.Proofs.Header.Revision
import PointCloud.Proofs.Writer.Rewriting
import PointCloud.Proofs.Writer.References
import PointCloud.Proofs.Header.Settling
import PointCloud.Proofs.Tables.Finding
import PointCloud.Proofs.Writer.Preparing
import PointCloud.Proofs.Bytes.Reading
import PointCloud.Proofs.Points.Demands
import PointCloud.Proofs.Points.RecordLayout
import PointCloud.Proofs.Points.Colors
import PointCloud.Proofs.Header.Blocks
import PointCloud.Proofs.Boxes.Growing
import PointCloud.Proofs.Header.Reading
import PointCloud.Proofs.Text.Padding
import PointCloud.Proofs.Decimal.Characters
import PointCloud.Proofs.Boxes.Grammar
import PointCloud.Proofs.Boxes.RoundTrip
import PointCloud.Proofs.Decimal.ReadBack
import PointCloud.Proofs.Boxes.Clipping
import PointCloud.Proofs.Tables.Buffers
import PointCloud.Proofs.Doubles.Values
import PointCloud.Proofs.Tables.Scalars
import PointCloud.Proofs.Options.ByName
import PointCloud.Proofs.Tables.Registering
import PointCloud.Proofs.Options.Requests
import PointCloud.Proofs.Options.DimensionLists
import PointCloud.Proofs.Points.Complaints
import PointCloud.Proofs.Writer.Remarks
import PointCloud.Proofs.Writer.Complaints
