import NixSeal.Lib.Base64
import NixSeal.Lib.Correspondence
import NixSeal.Lib.Fallible
import NixSeal.Lib.Faulty
import NixSeal.Lib.FileTree
import NixSeal.Lib.Focus
import NixSeal.Lib.Frontier
import NixSeal.Lib.Layering
import NixSeal.Lib.Matching
import NixSeal.Lib.Occurrence
import NixSeal.Lib.Ordered
import NixSeal.Lib.Runs
import NixSeal.Lib.Sink
import NixSeal.Lib.SplitReads
import NixSeal.Lib.Utf8
import NixSeal.Core.Text
import NixSeal.Core.Plan
import NixSeal.Manifest.Keys
import NixSeal.Manifest.Envelope
import NixSeal.Manifest.Soundness
import NixSeal.Manifest.Completeness
import NixSeal.Manifest.Capability
import NixSeal.Policy.Graph
import NixSeal.Policy.Validate
import NixSeal.Policy.Accepted
import NixSeal.Policy.Layers
import NixSeal.Policy.Projection
import NixSeal.Policy.Authorization
import NixSeal.Policy.Target
import NixSeal.Policy.Recipients
import NixSeal.Cache.Disk
import NixSeal.Cache.Read
import NixSeal.Cache.Write
import NixSeal.Cache.Transfer
import NixSeal.Cache.Contents
import NixSeal.Cache.Inventory
import NixSeal.Cache.Totals
import NixSeal.Cache.Hold
import NixSeal.Cache.Prepare
import NixSeal.Cache.Commit
import NixSeal.Cache.Exchange
import NixSeal.Cache.Import
import NixSeal.Cache.Collect
import NixSeal.Cache.Export
import NixSeal.Cache.Refinement
import NixSeal.Cache.Crash
import NixSeal.Cache.Readable
import NixSeal.Cache.Sweep
import NixSeal.Cache.Refused
import NixSeal.Cache.Address
import NixSeal.Generate.Delivery
import NixSeal.Generate.Order
import NixSeal.Authoring.Basic
import NixSeal.Authoring.Interleaving
import NixSeal.Authoring.Edit
import NixSeal.Authoring.Batch
import NixSeal.Authoring.Recovery
import NixSeal.Authoring.AllOrRecover
import NixSeal.Delegation.Create
import NixSeal.Delegation.Authorization
import NixSeal.Delegation.Domains
import NixSeal.Delegation.SingleUse
import NixSeal.Selection.Inspect
import NixSeal.Selection.Exact
import NixSeal.Runtime.Prepare
import NixSeal.Runtime.Template
import NixSeal.Runtime.NixTemplates
import NixSeal.Runtime.Rendering
import NixSeal.Runtime.Child
import NixSeal.Runtime.Supervision
import NixSeal.Runtime.Descendants
import NixSeal.Runtime.Spec
import NixSeal.Runtime.Destinations
import NixSeal.Runtime.Verification
import NixSeal.Runtime.Activatable
import NixSeal.Selection.Activation
import NixSeal.Selection.Approvals
import NixSeal.Selection.Scope
import NixSeal.Selection.Retention
import NixSeal.Policy.OutputPaths
import NixSeal.Policy.Lifecycle
import NixSeal.Authoring.Tree
import NixSeal.Authoring.Placement
import NixSeal.Generate.Repository
import NixSeal.Generate.UpToDate
import NixSeal.Generate.Turn
import NixSeal.Generate.Idempotence
import NixSeal.Generate.Repair
import NixSeal.Lib.Lines
import NixSeal.Crypto.Header
import NixSeal.Crypto.Operations
import NixSeal.Crypto.Barrier
import NixSeal.Crypto.Chunks
import NixSeal.Crypto.Stanzas
import NixSeal.Crypto.Staging
import NixSeal.Crypto.Worker
import NixSeal.Lib.MarkRuns
import NixSeal.Lib.Replace
import NixSeal.Lib.LastMax
import NixSeal.Lib.Words
import NixSeal.Runtime.Cursor
import NixSeal.Runtime.SinglePass
import NixSeal.Runtime.PublicTemplates
import NixSeal.Runtime.Buffers
import NixSeal.Runtime.Collections
import NixSeal.Runtime.Mountinfo
import NixSeal.Preparation.Remote
import NixSeal.Policy.Merge
import NixSeal.Policy.Cycles
import NixSeal.Authoring.Deletion
import NixSeal.Rekey.BoundedCopy
import NixSeal.Runtime.Generations
import NixSeal.Runtime.Numbering
import NixSeal.Runtime.Switching
import NixSeal.Runtime.Pruning
import NixSeal.Runtime.ActiveGeneration
import NixSeal.Runtime.PendingActions
import NixSeal.Lib.Stateful
import NixSeal.Generate.Builtins
import NixSeal.Generate.Formats
import NixSeal.Runtime.Activation
import NixSeal.Cache.Queries
import NixSeal.Rekey.Sharing
