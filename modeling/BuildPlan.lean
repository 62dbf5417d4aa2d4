import BuildPlan.Main
import BuildPlan.Proofs.Resolution.Annotations
import BuildPlan.Proofs.Resolution.Backing
import BuildPlan.Proofs.Resolution.Batches
import BuildPlan.Proofs.Resolution.Branches
import BuildPlan.Proofs.Resolution.Consumers
import BuildPlan.Proofs.Resolution.Deadline
import BuildPlan.Proofs.Resolution.Deepening
import BuildPlan.Proofs.Resolution.Depth
import BuildPlan.Proofs.Resolution.Faults
import BuildPlan.Proofs.Resolution.HalfStep
import BuildPlan.Proofs.Resolution.Leaf
import BuildPlan.Proofs.Resolution.Levels
import BuildPlan.Proofs.Resolution.Listing
import BuildPlan.Proofs.Resolution.Order
import BuildPlan.Proofs.Resolution.Outage
import BuildPlan.Proofs.Resolution.Panics
import BuildPlan.Proofs.Resolution.Requirements
import BuildPlan.Proofs.Resolution.Requirers
import BuildPlan.Proofs.Resolution.Rounds
import BuildPlan.Proofs.Resolution.Trimming
import BuildPlan.Proofs.Resolution.Union
import BuildPlan.Proofs.Resolution.Widening
import BuildPlan.Proofs.Universe.Sight
import BuildPlan.Request.Record
import BuildPlan.Snapshot.Record
import BuildPlan.Proofs.Universe.Scan
import BuildPlan.Proofs.Graph.DepthFirst
import BuildPlan.Proofs.Filter.Leaf
import BuildPlan.Proofs.Graph.Insertion
import BuildPlan.Proofs.Resolution.NormalForm
import BuildPlan.Proofs.Resolution.Spelling
import BuildPlan.Proofs.Graph.Counters
import BuildPlan.Proofs.Snapshot.Builder
import BuildPlan.Proofs.CommandLine.Writing
