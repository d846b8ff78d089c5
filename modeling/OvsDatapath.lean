import OvsDatapath.Lib.Wrap
import OvsDatapath.Lib.Fault
import OvsDatapath.Lib.Runs
import OvsDatapath.Lib.Hoare
import OvsDatapath.Lib.Fuel
import OvsDatapath.Lib.Majority
import OvsDatapath.Lib.MinHeap
import OvsDatapath.Lib.Hlist
import OvsDatapath.Lib.HashIndex
import OvsDatapath.Lib.Scan
import OvsDatapath.Lib.Stores
import OvsDatapath.Lib.MaskedWrite
import OvsDatapath.Lib.MulShift
import OvsDatapath.Lib.Cursor
import OvsDatapath.Flow.Key
import OvsDatapath.Flow.Mask
import OvsDatapath.Flow.FlowTable
import OvsDatapath.Flow.Buckets
import OvsDatapath.Flow.MaskArray
import OvsDatapath.Flow.Lookup
import OvsDatapath.Flow.TableOps
import OvsDatapath.Flow.Rehash
import OvsDatapath.Flow.MaskRuns
import OvsDatapath.Flow.MaskCache
import OvsDatapath.Flow.Skbuff
import OvsDatapath.Flow.KeyExtract
import OvsDatapath.Flow.PacketKind
import OvsDatapath.Flow.Netlink
import OvsDatapath.Flow.Match
import OvsDatapath.Flow.StaleKey
import OvsDatapath.Sketch.FlowKey
import OvsDatapath.Sketch.Countmax
import OvsDatapath.Sketch.Countmin
import OvsDatapath.Sketch.Hashtable
import OvsDatapath.Sketch.Hashheap
import OvsDatapath.Sketch.Fss
import OvsDatapath.Sketch.SketchManage
import OvsDatapath.Sketch.Report
import OvsDatapath.Sketch.CountedTuple
import OvsDatapath.Actions.Executor
import OvsDatapath.Actions.PacketCount
import OvsDatapath.Actions.Ledger
import OvsDatapath.Actions.Deferred
import OvsDatapath.Actions.Conservation
import OvsDatapath.Actions.CopyActions
import OvsDatapath.Flow.Identify
import OvsDatapath.Datapath.FlowCmd
import OvsDatapath.Flow.MatchFacts
import OvsDatapath.Datapath.InstalledActions
import OvsDatapath.Datapath.CmdEffects
import OvsDatapath.Flow.ExactLookup
import OvsDatapath.Datapath.FlowIds
import OvsDatapath.Datapath.ExactLookups
import OvsDatapath.Flow.Stats
import OvsDatapath.Actions.Resources
import OvsDatapath.Datapath.Upcall
import OvsDatapath.Flow.TunnelAttrs
import OvsDatapath.Flow.ReadMetadata
import OvsDatapath.Flow.SamePacket
import OvsDatapath.Flow.LabelStack
import OvsDatapath.Sketch.HeapExtract
import OvsDatapath.Sketch.Rows
import OvsDatapath.Datapath.Vports
import OvsDatapath.Datapath.UpcallPortids
import OvsDatapath.Datapath.Dumps
import OvsDatapath.Datapath.Headroom
import OvsDatapath.Datapath.VportSet
import OvsDatapath.Sketch.Sendbuf
import OvsDatapath.Actions.ActionBuffer
import OvsDatapath.Actions.CopyReads
import OvsDatapath.Actions.Truncation
import OvsDatapath.Actions.SetFields
import OvsDatapath.Actions.Rewrites
import OvsDatapath.Actions.SetIpv4
import OvsDatapath.Actions.SetExact
import OvsDatapath.Actions.AcceptedSets
import OvsDatapath.Actions.GeneveOpts
import OvsDatapath.Flow.ExactMask
import OvsDatapath.Flow.OwnMask
import OvsDatapath.Datapath.FlowReply
import OvsDatapath.Datapath.FlowRelease
import OvsDatapath.Datapath.CtCommit
import OvsDatapath.Stt.EcnMarks
import OvsDatapath.Stt.SegmentStream
import OvsDatapath.Lib.Cover
import OvsDatapath.Frag.Ipq
import OvsDatapath.Frag.QueueHolds
import OvsDatapath.Frag.Defrag
import OvsDatapath.Frag.Coverage
import OvsDatapath.Frag.Fragment
import OvsDatapath.Frag.Cut
import OvsDatapath.Frag.Output
import OvsDatapath.Frag.RoundTrip
import OvsDatapath.Lib.ByteSum
import OvsDatapath.Actions.Edits
import OvsDatapath.Actions.CompleteCsum
import OvsDatapath.Actions.CsumRuns
import OvsDatapath.Actions.LabelActions
import OvsDatapath.Actions.TransportCsum
import OvsDatapath.Actions.Ipv6Csum
