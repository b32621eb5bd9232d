import CmtTcp.Basic
import CmtTcp.Lib.Run
import CmtTcp.Lib.Memory
import CmtTcp.Lib.BoundedFifo
import CmtTcp.SendBuffer
import CmtTcp.SendBufferFifo
import CmtTcp.Lib.RingIndex
import CmtTcp.StreamQueue
import CmtTcp.Ring
import CmtTcp.RingMp
import CmtTcp.Lib.Gapped
import CmtTcp.Lib.ListSeg
import CmtTcp.RecvBuffer
import CmtTcp.Reassembly
import CmtTcp.Lib.Outcome
import CmtTcp.Tcp.Lists
import CmtTcp.Tcp.Ack
import CmtTcp.Tcp.Options
import CmtTcp.Tcp.Handlers
import CmtTcp.Tcp.Process
import CmtTcp.Tcp.SendSequence
import CmtTcp.Tcp.Close
import CmtTcp.Tcp.Opening
import CmtTcp.Tcp.Handshake
import CmtTcp.Tcp.Aborts
import CmtTcp.Tcp.OptionGrammar
import CmtTcp.Tcp.OptionReads
import CmtTcp.Rss
import CmtTcp.AddrPool
import CmtTcp.Lib.BackChain
import CmtTcp.TailQueue
import CmtTcp.FlowTable
import CmtTcp.Tcp.Timers
import CmtTcp.Lib.Placement
import CmtTcp.Lib.Regions
import CmtTcp.Tcp.TimerLinks
import CmtTcp.Tcp.TimerScans
import CmtTcp.Lib.AgeList
import CmtTcp.Tcp.Ageing
import CmtTcp.Tcp.RtoWheel
import CmtTcp.Tcp.RtoOverflow
import CmtTcp.Lib.Traced
import CmtTcp.Tcp.RtoScan
import CmtTcp.Lib.InsertionOrder
import CmtTcp.Tcp.SendLists
import CmtTcp.Tcp.Closed
import CmtTcp.ObjectPool
import CmtTcp.MemoryPool
import CmtTcp.Arp
import CmtTcp.Tcp.Frame
import CmtTcp.Lib.OnesComplement
import CmtTcp.Tcp.Checksum
import CmtTcp.Tcp.OptionEncoder
import CmtTcp.Tcp.TimestampWalk
import CmtTcp.Tcp.AckRemoval
import CmtTcp.Tcp.FastRetransmit
import CmtTcp.Tcp.RttEstimate
import CmtTcp.Tcp.TimeoutResend
import CmtTcp.Tcp.Backoff
import CmtTcp.SocketList
import CmtTcp.Logger
import CmtTcp.Tcp.RecvWindow
import CmtTcp.Tcp.WindowOpening
import CmtTcp.Tcp.WindowGrowth
import CmtTcp.Tcp.SegmentSize
import CmtTcp.Tcp.Acceptance
import CmtTcp.FdTable
import CmtTcp.Lib.Moves
import CmtTcp.RingCopy
import CmtTcp.RingCalls
import CmtTcp.Icmp
import CmtTcp.Lib.LongestMatch
import CmtTcp.Route
import CmtTcp.ArpTable
import CmtTcp.PoolUse
import CmtTcp.RecvPools
import CmtTcp.RecvRemove
import CmtTcp.Tcp.PassiveOpen
import CmtTcp.Rounding
import CmtTcp.Lib.ByteMemory
import CmtTcp.AlignedAlloc
import CmtTcp.Lib.Picking
import CmtTcp.SeqOrder
import CmtTcp.Tcp.AcksDue
import CmtTcp.AddrPoolLinks
import CmtTcp.Lib.Buckets
import CmtTcp.Tcp.Listen
import CmtTcp.BinCounts
import CmtTcp.PoolReset
import CmtTcp.Lib.LastCall
import CmtTcp.Tcp.Destroy
import CmtTcp.Lib.Alike
import CmtTcp.Tcp.Independence
import CmtTcp.Tcp.Host
import CmtTcp.Tcp.Phases
import CmtTcp.Tcp.SendStream
import CmtTcp.Tcp.Listings
import CmtTcp.Lib.Layout
import CmtTcp.Ethernet
import CmtTcp.Lan
import CmtTcp.Ping
import CmtTcp.Lib.Drain
import CmtTcp.RingMpProgress
import CmtTcp.RingMpFifo
import CmtTcp.Tcp.Corruption
import CmtTcp.HashTable
import CmtTcp.StreamPackets
import CmtTcp.Tcp.AcceptQueue
import CmtTcp.Tcp.SilentPeer
