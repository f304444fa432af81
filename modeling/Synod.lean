import Synod.Acceptor
import Synod.Agenda
import Synod.Ballot
import Synod.Cluster
import Synod.Command
import Synod.Config
import Synod.Connection
import Synod.Decimal.Shortest
import Synod.Delivery
import Synod.Error
import Synod.Event
import Synod.Fault
import Synod.Frame
import Synod.Json.Basic
import Synod.Json.Number
import Synod.Json.Reader
import Synod.Json.Scan
import Synod.Json.Token
import Synod.Link
import Synod.Main
import Synod.Message
import Synod.Network
import Synod.Node
import Synod.Proofs.AtomicRegister
import Synod.Proofs.BallotOrder
import Synod.Proofs.ClusterDescription
import Synod.Proofs.ConnectionExchange
import Synod.Proofs.ConnectionPrefix
import Synod.Proofs.ConnectionTurns
import Synod.Proofs.DecimalText
import Synod.Proofs.Elections
import Synod.Proofs.FaultFreePhase
import Synod.Proofs.FrameRoundTrip
import Synod.Proofs.FrameSegments
import Synod.Proofs.Freshness
import Synod.Proofs.IsolatedNode
import Synod.Proofs.JsonRead
import Synod.Proofs.JsonScan
import Synod.Proofs.JsonText
import Synod.Proofs.LinkAliases
import Synod.Proofs.LinkedNetwork
import Synod.Proofs.MessageSize
import Synod.Proofs.NodePhase
import Synod.Proofs.NodeRequests
import Synod.Proofs.NodeWork
import Synod.Proofs.PhaseDelivery
import Synod.Proofs.QuorumIntersection
import Synod.Proofs.RaceRuns
import Synod.Proofs.RecordSteps
import Synod.Proofs.RequestHistory
import Synod.Proofs.RetryLoop
import Synod.Proofs.RetryToken
import Synod.Proofs.RoundDecision
import Synod.Proofs.RoundHistory
import Synod.Proofs.RoundOutcome
import Synod.Proofs.RoundTraces
import Synod.Proofs.SingleWriter
import Synod.Proofs.SoleCaller
import Synod.Proofs.SystemAnswers
import Synod.Proofs.SystemGrowth
import Synod.Proofs.SystemSafety
import Synod.Proofs.SystemSteps
import Synod.Proofs.WireLayout
import Synod.Proofs.WireObjects
import Synod.Proofs.WireRoundTrip
import Synod.Proofs.WorkingMajority
import Synod.Proofs.WriteChain
import Synod.Proofs.YamlIntegers
import Synod.Quorum
import Synod.Race
import Synod.Round
import Synod.Service
import Synod.System
import Synod.Transform
import Synod.Value
import Synod.Wire.Basic
import Synod.Wire.Members
import Synod.Wire.Message
import Synod.Wire.Variants
import Synod.Work
import Synod.Yaml.Cursor
import Synod.Yaml.Node
import Synod.Yaml.Scalar
import Synod.Yaml.Token
