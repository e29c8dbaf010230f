import NetfabricBgp.LastMaximum
import NetfabricBgp.Runs
import NetfabricBgp.MaskBits
import NetfabricBgp.BitPrefix
import NetfabricBgp.KeyedLog
import NetfabricBgp.Addresses
import NetfabricBgp.NetworkTables
import NetfabricBgp.Routes
import NetfabricBgp.RouterMasks
import NetfabricBgp.RibEntries
import NetfabricBgp.Ribs
import NetfabricBgp.RibInvariants
import NetfabricBgp.ReferenceStores
import NetfabricBgp.RouterLookups
import NetfabricBgp.ChangeReports
import NetfabricBgp.BoundedQueues
import NetfabricBgp.Advertisements
import NetfabricBgp.Channels
import NetfabricBgp.Interfaces
import NetfabricBgp.Sessions
import NetfabricBgp.BufferLosses
import NetfabricBgp.RibInterfaces
import NetfabricBgp.Processes
import NetfabricBgp.ClientTables
import NetfabricBgp.ForwardingAnswers
import NetfabricBgp.WithdrawalReports
import NetfabricBgp.NeighbourReplays
import NetfabricBgp.BatchedReports
import NetfabricBgp.FallbackReports
import NetfabricBgp.RibLifecycles
import NetfabricBgp.Filters
import NetfabricBgp.PropagatedPaths
import NetfabricBgp.Loops
import NetfabricBgp.StateMachines
import NetfabricBgp.RunnerTurns
import NetfabricBgp.LineFraming
import NetfabricBgp.LiveParsers
import NetfabricBgp.LineDeliveries
import NetfabricBgp.StreamConnections
import NetfabricBgp.Topologies
import NetfabricBgp.MessageBuses
import NetfabricBgp.Incidences
import NetfabricBgp.Networks
import NetfabricBgp.TopologyWirings
import NetfabricBgp.JoinedSessions
import NetfabricBgp.LinkOrders
import NetfabricBgp.QuietNetworks
import NetfabricBgp.MaskLifetimes
import NetfabricBgp.InsertionReports
import NetfabricBgp.SharedChoices
import NetfabricBgp.LockContentions
import NetfabricBgp.BusOwnerships
import NetfabricBgp.NetworkStops
import NetfabricBgp.TopologyFailures
import NetfabricBgp.SessionBatches
import NetfabricBgp.JsonCodecs
import NetfabricBgp.RibFiles
import NetfabricBgp.ImportedViews
import NetfabricBgp.RemovalReports
import NetfabricBgp.RouteChoices
import NetfabricBgp.TiedInsertions
import NetfabricBgp.UndoneInsertions
import NetfabricBgp.OverlappingMessages
import NetfabricBgp.ForeignMessages
import NetfabricBgp.AdvertisementCodecs
import NetfabricBgp.GrowingVectors
import NetfabricBgp.VectorInterfaces
import NetfabricBgp.BatchedPushes
import NetfabricBgp.RouteOrders
import NetfabricBgp.TopologyHistories
import NetfabricBgp.DoubleCounts
import NetfabricBgp.RouterStatistics
import NetfabricBgp.TopologyThreads
import NetfabricBgp.TopologyRegions
import NetfabricBgp.TopologySpreads
import NetfabricBgp.Feeds
import NetfabricBgp.FilterCombinators
import NetfabricBgp.NetworkStarts
import NetfabricBgp.LiveNetworks
import NetfabricBgp.ParserCycles
