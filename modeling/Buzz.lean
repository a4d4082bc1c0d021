import Buzz.Proofs.FanOut
import Buzz.Relay.RegistryCalls
import Buzz.Proofs.RegistryCalls
import Buzz.Proofs.Retainers
import Buzz.Proofs.Lifecycle
import Buzz.Proofs.ReqCap
import Buzz.Proofs.ReqOrder
import Buzz.Core.Nip10
import Buzz.Db.Thread
import Buzz.Relay.ThreadMeta
import Buzz.Proofs.ThreadForest
import Buzz.Proofs.ThreadRuns
import Buzz.Db.EventQuery
import Buzz.Relay.QueryParams
import Buzz.Relay.Count
import Buzz.Proofs.CountScope
import Buzz.Proofs.CountExact
import Buzz.Relay.History
import Buzz.Proofs.History
import Buzz.Core.Artifact
import Buzz.Db.Artifact
import Buzz.Relay.SyncInbox
import Buzz.Auth.Command
import Buzz.Db.AdminActions
import Buzz.Db.PushWake
import Buzz.Proofs.Command
import Buzz.Proofs.Enforcement
import Buzz.Proofs.GitRepo
import Buzz.Proofs.PushCause
import Buzz.Proofs.ThreadReplies
import Buzz.Db.ReplicaFence
import Buzz.Lib.Page
import Buzz.Proofs.FenceCoverage
import Buzz.Proofs.Admission
import Buzz.Core.GitPerms
import Buzz.Proofs.GitPerms
import Buzz.Audit.Hash
import Buzz.Audit.Service
import Buzz.Lib.SortedBy
import Buzz.Proofs.AudioRoom
import Buzz.Proofs.AuditCanonical
import Buzz.Proofs.AuditChain
import Buzz.Proofs.SessionLeases
import Buzz.Acp.Queue
import Buzz.Proofs.QueueBatches
import Buzz.Proofs.QueueRetries
import Buzz.Proofs.PushChain
import Buzz.Proofs.PushClosure
import Buzz.Proofs.PushReport
import Buzz.Proofs.PublishedHead
import Buzz.Proofs.AdvertisedRefs
import Buzz.Proofs.PublishedReads
import Buzz.Proofs.HookPreimage
import Buzz.Proofs.OneRoom
import Buzz.Proofs.ReplaceableHeads
import Buzz.Proofs.MeshMembership
import Buzz.Proofs.PairingAgreement
import Buzz.Proofs.DesktopCode
import Buzz.Proofs.CursorCoverage
import Buzz.Proofs.BacklogReplay
import Buzz.Proofs.WakeAttempts
import Buzz.Proofs.WakeSchedules
import Buzz.Proofs.WebhookFields
import Buzz.Proofs.ReportFraming
import Buzz.Proofs.IntervalFires
import Buzz.Proofs.QueueHold
import Buzz.Proofs.EnforcementLoop
import Buzz.Proofs.PushAuthority
import Buzz.Proofs.AuthorityRefinement
import Buzz.Proofs.ReadStateRuns
import Buzz.Proofs.FlowState
import Buzz.Proofs.RefPatterns
import Buzz.Proofs.WakeBatches
import Buzz.Proofs.SlotPacking
import Buzz.Proofs.ThreadBinding
import Buzz.Proofs.CronFires
import Buzz.Proofs.Templates
import Buzz.Proofs.EngramRefs
import Buzz.Proofs.PushHydrates
import Buzz.Proofs.ArtifactRevisions
import Buzz.Proofs.SyncInbox
