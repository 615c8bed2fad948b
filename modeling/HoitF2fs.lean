import HoitF2fs.Lib.Transition
import HoitF2fs.Lib.Bitmap
import HoitF2fs.Nvm.Mpt
import HoitF2fs.Nvm.SegmentMap
import HoitF2fs.Nvm.Accounting
import HoitF2fs.Nvm.Threads
import HoitF2fs.Nvm.CkptSegmentMap
import HoitF2fs.Lib.RunCopy
import HoitF2fs.Nvm.Redirect
import HoitF2fs.Nvm.HotCopy
import HoitF2fs.Nvm.DoubleFlag
import HoitF2fs.Nvm.Gc
import HoitF2fs.Nvm.Dio
import HoitF2fs.Ckpt.Header
import HoitF2fs.Ckpt.Blocks
import HoitF2fs.Ckpt.Program
import HoitF2fs.Ckpt.Effects
import HoitF2fs.Ckpt.Equivalence
import HoitF2fs.Ckpt.Mount
import HoitF2fs.Ckpt.TwoPacks
import HoitF2fs.Ckpt.Remount
import HoitF2fs.Nvm.Bio
import HoitF2fs.Lib.Shadow
import HoitF2fs.Nvm.MptStore
import HoitF2fs.Nvm.MptCommit
import HoitF2fs.Nvm.Nsb
import HoitF2fs.Nvm.NsbCommit
import HoitF2fs.Nvm.MetaMapping
import HoitF2fs.Recovery.Replay
import HoitF2fs.Recovery.RollForward
import HoitF2fs.Recovery.Recovered
import HoitF2fs.Lib.Journal
import HoitF2fs.Node.NatTable
import HoitF2fs.Node.NatCache
import HoitF2fs.Node.NatInv
import HoitF2fs.Node.NatFlush
import HoitF2fs.Node.NatMap
import HoitF2fs.Segment.FreeSegmap
import HoitF2fs.Segment.Sit
import HoitF2fs.Segment.Manager
import HoitF2fs.Segment.SitAccounting
import HoitF2fs.Segment.Prefree
import HoitF2fs.Segment.SitRuns
import HoitF2fs.Segment.SitFlush
import HoitF2fs.Segment.SitRoundTrip
import HoitF2fs.Segment.DirtyList
import HoitF2fs.Segment.FreshBlocks
import HoitF2fs.Segment.DiscardTree
import HoitF2fs.Segment.Discards
import HoitF2fs.Segment.FlushMerge
import HoitF2fs.Segment.FlushBarrier
import HoitF2fs.Extent.Cache
import HoitF2fs.Extent.Nodes
import HoitF2fs.Extent.Sound
import HoitF2fs.Lib.ByteList
import HoitF2fs.Xattr.Xattr
import HoitF2fs.Xattr.Entries
import HoitF2fs.Xattr.Map
import HoitF2fs.Lib.Runs
import HoitF2fs.Nvm.SegmentMove
import HoitF2fs.Lib.BinHeap
import HoitF2fs.Nvm.ColdVictims
import HoitF2fs.Ckpt.PackMove
import HoitF2fs.Ckpt.Orphans
import HoitF2fs.Ckpt.Summaries
import HoitF2fs.Ckpt.Locators
import HoitF2fs.Lib.WriteCache
import HoitF2fs.Segment.Durability
import HoitF2fs.Nvm.LoadBalance
import HoitF2fs.Nvm.MptFlags
import HoitF2fs.Nvm.HotVictims
import HoitF2fs.Nvm.LfuHeat
import HoitF2fs.Lib.Word32
import HoitF2fs.Node.NodePath
import HoitF2fs.Nvm.NvmFormat
import HoitF2fs.Nvm.ColdToSsd
import HoitF2fs.Extent.MapLookup
import HoitF2fs.Lib.SlotMove
import HoitF2fs.Node.BlockExchange
import HoitF2fs.Node.ExchangeRuns
import HoitF2fs.Ckpt.PackLayout
import HoitF2fs.Recovery.LoopCheck
import HoitF2fs.Segment.DiscardUnion
import HoitF2fs.Segment.SegmentSearch
import HoitF2fs.Segment.ValidBlocks
import HoitF2fs.Dir.Dentries
import HoitF2fs.Dir.Readdir
import HoitF2fs.Segment.VictimSelect
import HoitF2fs.Xattr.Bounds
import HoitF2fs.Node.FreeNid
import HoitF2fs.Node.FreeNidList
import HoitF2fs.Node.FreeNidScan
import HoitF2fs.Node.FreeNidInv
import HoitF2fs.Node.FreeNidAlloc
import HoitF2fs.Node.FreeNidFlush
import HoitF2fs.Node.FreeNidSteps
import HoitF2fs.Node.FreeNidRuns
import HoitF2fs.Node.NidHolders
import HoitF2fs.Lib.WordBits
import HoitF2fs.Segment.RevBits
import HoitF2fs.Ckpt.SuperLayout
import HoitF2fs.Node.ShadowAddr
import HoitF2fs.Ckpt.SafeCkpt
import HoitF2fs.Segment.ReplaceBlock
import HoitF2fs.Lib.Slots
import HoitF2fs.Node.Truncate
import HoitF2fs.Node.TruncateNodes
import HoitF2fs.Node.TruncateTree
import HoitF2fs.Node.FileMap
import HoitF2fs.Node.TruncateBlocks
import HoitF2fs.Node.TruncateHole
import HoitF2fs.Dir.DentryBlock
import HoitF2fs.Dir.DentryHash
import HoitF2fs.Dir.HashDir
import HoitF2fs.Lib.Places
import HoitF2fs.Dir.HashLookup
import HoitF2fs.Dir.HashInsert
import HoitF2fs.Dir.InlineConvert
import HoitF2fs.Lib.Answers
import HoitF2fs.Dir.DirRuns
import HoitF2fs.Lib.RefCount
import HoitF2fs.Dir.NameTree
import HoitF2fs.Dir.LinkCounts
import HoitF2fs.Dir.NameCalls
import HoitF2fs.Dir.NameModel
import HoitF2fs.Dir.NameSpecs
import HoitF2fs.Dir.Renames
import HoitF2fs.Dir.NameiRuns
import HoitF2fs.Dir.Whiteouts
