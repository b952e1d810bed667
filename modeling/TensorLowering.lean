import TensorLowering.CaseTable
import TensorLowering.Graph.History
import TensorLowering.Pass
import TensorLowering.Proofs.Concatenation
import TensorLowering.Proofs.Schedule
import TensorLowering.Proofs.WindowGeometry
import TensorLowering.Replay.Geometry
import TensorLowering.Replay.Selection
import TensorLowering.Proofs.AxisOrder
import TensorLowering.Proofs.Broadcasting
import TensorLowering.Proofs.Reduction
import TensorLowering.Proofs.Locality
import TensorLowering.Proofs.Relocation
import TensorLowering.Proofs.Resolution
import TensorLowering.Proofs.Diagnosis
import TensorLowering.Proofs.GroupedChannels
import TensorLowering.Proofs.ChunkCoverage
import TensorLowering.Proofs.ResultSize
import TensorLowering.Graph.Store
import TensorLowering.Proofs.GraphStore
import TensorLowering.Proofs.Elision
import TensorLowering.Proofs.AxisSets
import TensorLowering.Proofs.WindowOverflow
import TensorLowering.Proofs.SizeOverflow
import TensorLowering.Proofs.ChunkBounds
import TensorLowering.Proofs.BroadcastAlgebra
import TensorLowering.Proofs.ReducedShape
import TensorLowering.Proofs.RowPartition
import TensorLowering.Proofs.RankExtension
import TensorLowering.Proofs.ReorderingSafety
import TensorLowering.Proofs.ChunkSizes
import TensorLowering.Proofs.ThreadCount
import TensorLowering.Proofs.AxisCanonicalForm
import TensorLowering.Proofs.ElementCount
