import A2ad.Control.Store
import A2ad.Lib.Trace
import A2ad.Control.Admission
import A2ad.Control.Approval
import A2ad.Control.Delegation
import A2ad.Control.Dispatch
import A2ad.Client.Auth
import A2ad.Client.Classify
import A2ad.Client.Rpc
import A2ad.Client.Stream
import A2ad.Control.Audit
import A2ad.Control.Channel
import A2ad.Daemon.Frames
import A2ad.Ipc.Dispatch
import A2ad.Ipc.TaskIds
import A2ad.Lib.Fence
import A2ad.Client.Grpc
import A2ad.Control.Continuation
import A2ad.Control.Fencing
import A2ad.Control.Paging
import A2ad.Control.Quarantine
import A2ad.Control.Prompts
import A2ad.Ipc.Contact
import A2ad.Ipc.Definite
import A2ad.Task.Failure
import A2ad.Task.Terminal
import A2ad.Client.Ask
import A2ad.Client.CardCache
import A2ad.Client.CardShape
import A2ad.Client.Ending
import A2ad.Client.LocalHost
import A2ad.Client.Selection
import A2ad.Daemon.Routing
import A2ad.Ipc.Handler
import A2ad.Ipc.Redaction
import A2ad.Ipc.Target
import A2ad.Lib.Serial
import A2ad.Lib.Upsert
import A2ad.Task.Advertised
import A2ad.Task.Announced
import A2ad.Task.Association
import A2ad.Task.Completion
import A2ad.Task.Discovery
import A2ad.Task.LastGood
import A2ad.Task.Locking
import A2ad.Task.Merging
import A2ad.Task.Restart
import A2ad.Task.Serial
import A2ad.Ipc.Framing
import A2ad.Task.Base64
import A2ad.Task.Origin
import A2ad.Task.Migration
import A2ad.Task.Saving
import A2ad.Control.Integrity
import A2ad.Control.Journal
import A2ad.Ipc.Once
import A2ad.Daemon.Instance
import A2ad.Kitten.Rpc
import A2ad.Kitten.Events
import A2ad.Ipc.Answers
import A2ad.Ipc.Logged
import A2ad.Client.Uniform
