import SmetricRouter.ProgramScheduling.Conservation
import SmetricRouter.ProgramScheduling.Saturation
import SmetricRouter.ProgramScheduling.Isolation
import SmetricRouter.ProgramScheduling.Deadlines
import SmetricRouter.ProgramScheduling.PlacementStart
import SmetricRouter.ProgramScheduling.AdmissionLimits
import SmetricRouter.ProgramScheduling.ObservationRebase
import SmetricRouter.ProgramScheduling.Reservations
import SmetricRouter.Workers.Counters
import SmetricRouter.Routing.AttemptLoads
import SmetricRouter.Routing.TargetLists
import SmetricRouter.ProgramScheduling.Timers
import SmetricRouter.ProgramScheduling.Residue
import SmetricRouter.DataConnector.ResponseMemoryStore
import SmetricRouter.Policies.ConsistentHash
import SmetricRouter.Policies.FurcHash
import SmetricRouter.Policies.Registry
import SmetricRouter.ServiceDiscovery
import SmetricRouter.Middleware.AdmissionTokens
import SmetricRouter.Middleware.QueueTimeout
import SmetricRouter.ProgramScheduling.Actors
import SmetricRouter.ProgramScheduling.BatchGain
import SmetricRouter.ProgramScheduling.DurationHints
import SmetricRouter.Policies.SMetric
import SmetricRouter.KvIndex.LostEvents
import SmetricRouter.Replayer.Accounts
import SmetricRouter.Replayer.Prompts
import SmetricRouter.ProgramScheduling.SchedulingPasses
import SmetricRouter.Protocols.PromptInput
