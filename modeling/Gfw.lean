import Gfw.Pointer.Reuse
import Gfw.Wan.Presence
import Gfw.NetWorker.Exhaustion
import Gfw.NetWorker.Conservation
import Gfw.NetWorker.Transport
import Gfw.Wan.Containment
import Gfw.NetWorker.Oversize
import Gfw.Pointer.Compaction
import Gfw.Pointer.Window
import Gfw.DataPacket.Raw
import Gfw.Data.Mailbox
import Gfw.NetMgr.Basic
import Gfw.NetMgr.Scheduling
import Gfw.NetMgr.Forgery
import Gfw.NetMgr.Stage
import Gfw.NetMgr.Flow
import Gfw.NetMgr.Quiescence
import Gfw.NetMgr.Decoding
import Gfw.NetMgr.Writing
import Gfw.Client.Basic
import Gfw.Client.Bodies
import Gfw.Script.Check
import Gfw.Console.Command
import Gfw.Console.Reader
import Gfw.Script.Stack
import Gfw.Engine.Script
import Gfw.Engine.Balance
import Gfw.Engine.Loop
import Gfw.Script.Profiler
import Gfw.Data.Chain
import Gfw.NetMgr.Queue
import Gfw.NetMgr.Linked
import Gfw.NetWorker.Stream
import Gfw.Wan.Replies
import Gfw.Wan.Conversation
import Gfw.Data.Tally
import Gfw.NetMgr.Accepting
import Gfw.NetMgr.Echo
import Gfw.NetMgr.Draining
import Gfw.Http.Basic
import Gfw.Http.Worker
import Gfw.Http.Deadline
import Gfw.Http.Accounts
import Gfw.NetMgr.Heap
import Gfw.Engine.Run
import Gfw.Data.Block
import Gfw.Http.FieldsAlloc
import Gfw.Client.Run
import Gfw.NetMgr.Returning
