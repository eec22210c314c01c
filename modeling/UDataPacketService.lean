import UDataPacketService.MachineRuns
import UDataPacketService.BoundedFifo
import UDataPacketService.PacketModel
import UDataPacketService.StreamModel
import UDataPacketService.ManagerModel
import UDataPacketService.OrderedContainers
import UDataPacketService.ClientView
import UDataPacketService.ViewRefinement
import UDataPacketService.StreamIsolation
import UDataPacketService.StreamAccount
import UDataPacketService.ManagerInvariant
import UDataPacketService.PacketArrival
import UDataPacketService.DeliveryLaw
import UDataPacketService.SubscriberCount
import UDataPacketService.QueueWalk
import UDataPacketService.SubscriptionOrder
import UDataPacketService.ClientIsolation
import UDataPacketService.ReactorModel
import UDataPacketService.ReactorProtocol
import UDataPacketService.WriteDiscipline
import UDataPacketService.Authentication
import UDataPacketService.Unsubscription
import UDataPacketService.SubscriberLimit
import UDataPacketService.CallInterleaving
import UDataPacketService.CallConfinement
import UDataPacketService.FinishedCalls
import UDataPacketService.IntervalChain
import UDataPacketService.CircularBuffer
import UDataPacketService.DetectorModel
import UDataPacketService.DetectorMemory
import UDataPacketService.ArrivalOrder
import UDataPacketService.RegularArrivals
import UDataPacketService.TimingSlips
import UDataPacketService.StreamIndependence
import UDataPacketService.PacketConverter
import UDataPacketService.ImportQueue
import UDataPacketService.JoinedFields
import UDataPacketService.StreamNaming
import UDataPacketService.ConcurrentModel
import UDataPacketService.ClientStanding
import UDataPacketService.ProducerMoves
import UDataPacketService.ClientMoves
import UDataPacketService.ConcurrentSteps
import UDataPacketService.StreamBirth
import UDataPacketService.ClientDeparture
import UDataPacketService.BufferInvariant
import UDataPacketService.FutureDetector
import UDataPacketService.FairRuns
import UDataPacketService.SubscriberModel
import UDataPacketService.ReconnectPolicy
import UDataPacketService.ReconnectAccount
import UDataPacketService.SubscriberShutdown
import UDataPacketService.SelectionRefusal
import UDataPacketService.SummaryReports
import UDataPacketService.WriterQueue
import UDataPacketService.CapacityEstimate
import UDataPacketService.EndTimeArithmetic
import UDataPacketService.UtilizationGauge
import UDataPacketService.LossyRuns
import UDataPacketService.SteadyReactors
import UDataPacketService.ClientHoldings
import UDataPacketService.ServerDelivery
import UDataPacketService.SelectedStreams
import UDataPacketService.ServerShutdown
import UDataPacketService.DeliveryProgress
import UDataPacketService.MachineParts
import UDataPacketService.ImportReader
import UDataPacketService.ReaderProtocol
import UDataPacketService.ReaderShutdown
import UDataPacketService.ProcessModel
import UDataPacketService.ProcessDelivery
import UDataPacketService.ProcessOrder
import UDataPacketService.ProcessShutdown
import UDataPacketService.CallRecords
import UDataPacketService.ProgramConfiguration
import UDataPacketService.ConfiguredAccess
