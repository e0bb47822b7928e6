import Demonstrator.Lib.Memory
import Demonstrator.Lib.FlatMemory
import Demonstrator.Lib.Transition
import Demonstrator.Report
import Demonstrator.ReportText
import Demonstrator.Tally
import Demonstrator.Teardown
import Demonstrator.Packet
import Demonstrator.Dev
import Demonstrator.DevMemory
import Demonstrator.Initiator
import Demonstrator.Isolation
import Demonstrator.Lib.Footprint
import Demonstrator.RegisterBounds
import Demonstrator.FreshDevice
import Demonstrator.Lib.Monitor
import Demonstrator.ServerStart
import Demonstrator.SoftInterrupt
import Demonstrator.InterruptRelease
import Demonstrator.InterruptSync
import Demonstrator.DevWait
import Demonstrator.Driver
import Demonstrator.AsyncAdaptor
import Demonstrator.Remote
import Demonstrator.RemoteMemory
import Demonstrator.Session
import Demonstrator.Segmentation
import Demonstrator.Channel
import Demonstrator.Lib.Fifo
import Demonstrator.ChannelOrder
import Demonstrator.Bridge
import Demonstrator.Handshake
import Demonstrator.LostPulse
import Demonstrator.LostNotification
import Demonstrator.Lib.Signal
import Demonstrator.KeepAlive
import Demonstrator.ChannelLocks
import Demonstrator.BlockingGet
import Demonstrator.Lib.Search
import Demonstrator.StdString
import Demonstrator.LogicLiteral
import Demonstrator.ConnectLoop
import Demonstrator.RegisterTest
import Demonstrator.RunTime
import Demonstrator.CommandLine
import Demonstrator.Stream
import Demonstrator.IntegerStream
import Demonstrator.NumberText
import Demonstrator.Relabel
import Demonstrator.Lib.Simulation
import Demonstrator.Stack
import Demonstrator.Lib.Mealy
import Demonstrator.StackSession
import Demonstrator.RegisterSession
import Demonstrator.Stop
import Demonstrator.Lib.Outline
import Demonstrator.ListeningPort
import Demonstrator.Netlist
import Demonstrator.ReportLog
import Demonstrator.SimulatedTime
import Demonstrator.CallReturns
import Demonstrator.ScMain
import Demonstrator.ClientProgram
import Demonstrator.TestOverStack
