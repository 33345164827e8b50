import SospDemo.Library.StdMap
import SospDemo.Library.Runs
import SospDemo.Library.SequentialObject
import SospDemo.Library.Linearizability
import SospDemo.Library.Simulation
import SospDemo.Library.Chunks
import SospDemo.Library.Pieces
import SospDemo.Library.FirstMaximum
import SospDemo.Library.RowMajor
import SospDemo.Library.Buffers
import SospDemo.Library.SharedMutex
import SospDemo.Library.WireFormat
import SospDemo.Model.Data
import SospDemo.Model.CategorizerTier
import SospDemo.Model.InferenceEngine
import SospDemo.Model.MxNetEngine
import SospDemo.Model.FunctionTierGrpc
import SospDemo.Model.FunctionTier
import SospDemo.Model.ClientLogic
import SospDemo.Model.CommandLine
import SospDemo.Model.BlobStore
import SospDemo.Model.ModelObjects
import SospDemo.Model.UploadMemory
import SospDemo.Model.Serialization
import SospDemo.Model.ServerLifeCycle
import SospDemo.Replica.Steps
import SospDemo.Replica.Coherence
import SospDemo.Replica.CachedPath
import SospDemo.Replica.Sources
import SospDemo.Locks.Steps
import SospDemo.Locks.Exclusion
import SospDemo.Locks.OrderedCalls
import SospDemo.Locks.Photos
import SospDemo.Locks.Progress
import SospDemo.Locks.Refinement
import SospDemo.Tier.Steps
import SospDemo.Tier.Agreement
import SospDemo.Tier.Isolation
import SospDemo.Tier.Answers
import SospDemo.Engine.Synset
import SospDemo.Engine.Label
import SospDemo.Engine.InputLayer
import SospDemo.Engine.Parameters
import SospDemo.Engine.Object
import SospDemo.Blob.Ownership
import SospDemo.Blob.ValueSemantics
import SospDemo.Blob.WireFormat
import SospDemo.Blob.Models
import SospDemo.Upload.Grammar
import SospDemo.Upload.Accepted
import SospDemo.Upload.FileUploader
import SospDemo.Upload.Client
import SospDemo.Upload.Abandoned
import SospDemo.Upload.RoundTrip
import SospDemo.Upload.Memory
import SospDemo.FrontEnd.Requests
import SospDemo.FrontEnd.TagList
import SospDemo.FrontEnd.Usage
import SospDemo.FrontEnd.ServerLifeCycle
import SospDemo.Service.Steps
import SospDemo.Service.Layout
import SospDemo.Service.Linearizable
import SospDemo.Service.Cluster
import SospDemo.Service.Refinement
import SospDemo.Service.Inferences
import SospDemo.Service.Replies
import SospDemo.Service.Answers
import SospDemo.Service.Sources
import SospDemo.Service.Transfer
import SospDemo.Service.Sessions
import SospDemo.Locks.Service
import SospDemo.Locks.ServiceRefinement
import SospDemo.Locks.Answers
import SospDemo.Locks.Origins
import SospDemo.Locks.Provenance
import SospDemo.Locks.Labels
