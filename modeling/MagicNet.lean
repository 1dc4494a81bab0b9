import MagicNet.Foundation.System
import MagicNet.Foundation.Wakeup
import MagicNet.Analysis.PostWakeup
import MagicNet.Analysis.WorkerWakeup
import MagicNet.Foundation.Activation
import MagicNet.Foundation.SlotTable
import MagicNet.Analysis.MailboxDrain
import MagicNet.Analysis.MailboxOrder
import MagicNet.Analysis.RegistryMap
import MagicNet.Analysis.PollStarvation
import MagicNet.Analysis.GracefulClose
import MagicNet.Analysis.SendStream
import MagicNet.Analysis.ChannelRoundTrip
import MagicNet.Analysis.ClockExactness
import MagicNet.Analysis.TaskCustody
import MagicNet.Analysis.ReserveRace
import MagicNet.Analysis.Registration
import MagicNet.Analysis.AcceptedSlot
import MagicNet.Analysis.WriteInterest
import MagicNet.Analysis.Answered
import MagicNet.Analysis.EndOfStream
import MagicNet.Analysis.PayloadRelease
import MagicNet.Analysis.WakeOnce
import MagicNet.Analysis.LoadBalance
import MagicNet.Analysis.DequeSequence
import MagicNet.Analysis.QueueFifo
import MagicNet.Foundation.CondVar
import MagicNet.Foundation.RefCount
import MagicNet.Analysis.SuspendedHandler
import MagicNet.Analysis.CollectorView
import MagicNet.Analysis.DroppedRequests
import MagicNet.Analysis.LogShutdown
import MagicNet.Analysis.ReadersWriters
import MagicNet.Analysis.DoRead
import MagicNet.Analysis.StaleEvents
import MagicNet.Analysis.TaskCollection
import MagicNet.Analysis.ReadLine
import MagicNet.Analysis.ActorSlots
import MagicNet.Analysis.ActorInit
import MagicNet.Analysis.Backlog
import MagicNet.Analysis.InFlight
import MagicNet.Analysis.StaleHandles
import MagicNet.Analysis.HandleArithmetic
import MagicNet.Analysis.ConnectAttempts
import MagicNet.Analysis.Steal
import MagicNet.Analysis.IdleBalance
import MagicNet.Analysis.BusyMark
import MagicNet.Analysis.MessageHeader
import MagicNet.Analysis.SessionNumbers
import MagicNet.Analysis.RecvAdapt
import MagicNet.Analysis.ListenExits
import MagicNet.Analysis.NullPointers
import MagicNet.Analysis.BufferLayout
import MagicNet.Analysis.SuspendAssertions
import MagicNet.Analysis.StringReplace
import MagicNet.Analysis.ComponentTemplates
import MagicNet.Analysis.LuaSearch
import MagicNet.Analysis.LuaAccounting
import MagicNet.Analysis.LuaBalance
import MagicNet.Analysis.ListAlgebra
import MagicNet.Analysis.ControlBlock
import MagicNet.Analysis.ClockSelection
import MagicNet.Analysis.CollectorPass
import MagicNet.Analysis.Redistribution
import MagicNet.Analysis.PollCursor
import MagicNet.Analysis.NodeCustody
import MagicNet.Analysis.NodeOperations
import MagicNet.Analysis.InboundStream
import MagicNet.Analysis.DescriptorCustody
import MagicNet.Analysis.PollerRefinement
import MagicNet.Analysis.ComponentCache
import MagicNet.Analysis.FileCache
import MagicNet.Analysis.CommandLine
import MagicNet.Analysis.StringSplit
import MagicNet.Analysis.TimerDelivery
import MagicNet.Analysis.CollectorProgress
import MagicNet.Analysis.LuaComponent
import MagicNet.Analysis.RegistryClear
import MagicNet.Analysis.Protocols
import MagicNet.Analysis.TimerCalls
import MagicNet.Analysis.PidFile
import MagicNet.Analysis.ContextSwitch
import MagicNet.Analysis.EndToEnd
