import OutcomeRelay.Amqp.Arguments
import OutcomeRelay.Broker.Basic
import OutcomeRelay.CommandLine.Service
import OutcomeRelay.Config.Load
import OutcomeRelay.Connection.Address
import OutcomeRelay.Connection.Attempts
import OutcomeRelay.Delivery.Run
import OutcomeRelay.Event.Identifier
import OutcomeRelay.Handler.Registry
import OutcomeRelay.Log.Filter
import OutcomeRelay.Log.Line
import OutcomeRelay.Main
import OutcomeRelay.Proofs.BrokerContents
import OutcomeRelay.Proofs.BrokerReturns
import OutcomeRelay.Proofs.Bus
import OutcomeRelay.Proofs.BusAccounting
import OutcomeRelay.Proofs.BusConservation
import OutcomeRelay.Proofs.BusCustody
import OutcomeRelay.Proofs.BusDeliveries
import OutcomeRelay.Proofs.BusEffect
import OutcomeRelay.Proofs.BusRoutes
import OutcomeRelay.Proofs.CommandGrammar
import OutcomeRelay.Proofs.ConfiguredRoutes
import OutcomeRelay.Proofs.ConsumerClosing
import OutcomeRelay.Proofs.ConsumerStreams
import OutcomeRelay.Proofs.DeathCounts
import OutcomeRelay.Proofs.DecimalText
import OutcomeRelay.Proofs.DeclaredTopology
import OutcomeRelay.Proofs.DeliveryLifecycle
import OutcomeRelay.Proofs.DeliveryTrail
import OutcomeRelay.Proofs.DigitText
import OutcomeRelay.Proofs.DispatcherStart
import OutcomeRelay.Proofs.EntityDeclaration
import OutcomeRelay.Proofs.EventWire
import OutcomeRelay.Proofs.FirstDeliveries
import OutcomeRelay.Proofs.FreeFormValues
import OutcomeRelay.Proofs.IdentifierOrder
import OutcomeRelay.Proofs.IndependentPaths
import OutcomeRelay.Proofs.JsonText
import OutcomeRelay.Proofs.LooseReading
import OutcomeRelay.Proofs.Machine
import OutcomeRelay.Proofs.MaskedDigits
import OutcomeRelay.Proofs.MirroredQueues
import OutcomeRelay.Proofs.OutcomeRouting
import OutcomeRelay.Proofs.Outlet
import OutcomeRelay.Proofs.OutletContents
import OutcomeRelay.Proofs.ParkedConsumers
import OutcomeRelay.Proofs.PathRequests
import OutcomeRelay.Proofs.PayloadNumbers
import OutcomeRelay.Proofs.PrefetchLimits
import OutcomeRelay.Proofs.PublishCall
import OutcomeRelay.Proofs.PublishProtocol
import OutcomeRelay.Proofs.PublishingChannel
import OutcomeRelay.Proofs.QueueEpochs
import OutcomeRelay.Proofs.RecordReading
import OutcomeRelay.Proofs.RedactedAddress
import OutcomeRelay.Proofs.Relay
import OutcomeRelay.Proofs.RelayFates
import OutcomeRelay.Proofs.RelayLedger
import OutcomeRelay.Proofs.RelayMoves
import OutcomeRelay.Proofs.RelayShutdown
import OutcomeRelay.Proofs.RelayStations
import OutcomeRelay.Proofs.RetrySettings
import OutcomeRelay.Proofs.RetryWaits
import OutcomeRelay.Proofs.RoutedCopies
import OutcomeRelay.Proofs.SendVerdict
import OutcomeRelay.Proofs.ShutdownCounts
import OutcomeRelay.Proofs.SignalAccounting
import OutcomeRelay.Proofs.SignalDraining
import OutcomeRelay.Proofs.SignalFlow
import OutcomeRelay.Proofs.Startup
import OutcomeRelay.Proofs.TimestampText
import OutcomeRelay.Proofs.TopicKeys
import OutcomeRelay.Proofs.TopicPatterns
import OutcomeRelay.Proofs.TopologyDeclaration
import OutcomeRelay.Proofs.WireRoundTrip
import OutcomeRelay.Proofs.WorkerBooks
import OutcomeRelay.Proofs.WorkerIntake
import OutcomeRelay.Publisher.Monitor
import OutcomeRelay.Settings.Json
import OutcomeRelay.Simulation.Directory
import OutcomeRelay.Simulation.RemoteScenario
import OutcomeRelay.Simulation.Scenario
import OutcomeRelay.Simulation.Session
import OutcomeRelay.Topology.Settings
import OutcomeRelay.Worker.Config
