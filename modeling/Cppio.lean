import Cppio.Library.Machine
import Cppio.Library.Keyed
import Cppio.Reactor.TimerDelivery
import Cppio.Reactor.Epoll
import Cppio.Network.SocketPairing
import Cppio.Network.Http.RequestStability
import Cppio.Network.Http.ClientRequest
import Cppio.Network.Http.QueryString
import Cppio.Network.Http.ResponseFraming
import Cppio.Network.Http.StatusLine
import Cppio.Network.Http.QueryDecoding
import Cppio.Network.Http.PercentDecoding
import Cppio.Network.Http.ResponseStability
import Cppio.Network.EndpointParsing
import Cppio.Network.CanonicalPrinting
import Cppio.Network.SocketOwnership
import Cppio.Network.UdpReply
import Cppio.Network.ConnectionSetup
import Cppio.Network.Win32Writing
import Cppio.Network.WakeSource
import Cppio.Workers.WaitTime
import Cppio.Workers.LostWakeup
import Cppio.Workers.OneWorker
import Cppio.Workers.Shutdown
import Cppio.Workers.Exclusion
import Cppio.Workers.Availability
import Cppio.Task.Sequential
import Cppio.Reactor.Completion
import Cppio.Reactor.Fairness
import Cppio.Reactor.TimerWidths
import Cppio.Network.TcpCalls
import Cppio.Network.HangUp
import Cppio.Network.TransferCalls
import Cppio.Network.Streams
import Cppio.Reactor.Parked
import Cppio.Reactor.FutureValues
import Cppio.Workers.TimersLock
import Cppio.Reactor.Lifetimes
import Cppio.Reactor.Overlapped
import Cppio.Network.Win32Completions
import Cppio.Runners.Computing
import Cppio.Runners.WakeSources
import Cppio.Runners.Streams
