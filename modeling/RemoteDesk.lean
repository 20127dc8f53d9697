import RemoteDesk.Inbox.DeliveryOrder
import RemoteDesk.Inbox.PressPosition
import RemoteDesk.Inbox.SwitchBarrier
import RemoteDesk.Inbox.TouchStream
import RemoteDesk.Inbox.Motion
import RemoteDesk.Inbox.Revocation
import RemoteDesk.Wire.Codec
import RemoteDesk.Crypto.WriterFairness
import RemoteDesk.Crypto.Delivery
import RemoteDesk.Vnc.DecodedBound
import RemoteDesk.Vnc.RectangleDecode
import RemoteDesk.Rdp.FrameFreshness
import RemoteDesk.Rdp.InputQueue
import RemoteDesk.Rdp.GeometryFence
import RemoteDesk.Files.TerminalDecision
import RemoteDesk.Files.TransferRegistry
import RemoteDesk.Files.DownloadSink
import RemoteDesk.Files.Upload
import RemoteDesk.Clipboard.PublicationQueue
import RemoteDesk.Clipboard.FormatState
import RemoteDesk.Clipboard.ContentCodec
import RemoteDesk.Clipboard.FileOffer
import RemoteDesk.Clipboard.Authority
import RemoteDesk.Clipboard.ReceiveOutcome
import RemoteDesk.SecurityKey.ReleaseOrder
import RemoteDesk.Ssh.SessionManager
import RemoteDesk.Ssh.PromptBroker
import RemoteDesk.Endpoint.Canonical
import RemoteDesk.Ssh.ForwardingRuntime
import RemoteDesk.Sftp.BatchPlan
import RemoteDesk.Totp.OneTime
import RemoteDesk.Moonlight.CloudDeletion
import RemoteDesk.Cloud.LifecyclePolicy
import RemoteDesk.Cloud.Quarantine
import RemoteDesk.Cloud.DownloadTransaction
import RemoteDesk.Ssh.WorkspaceStorage
import RemoteDesk.Moonlight.Input.BridgeOrder
import RemoteDesk.Display.SwitchGate
import RemoteDesk.Render.HandleRuns
import RemoteDesk.Render.CallbackRuns
import RemoteDesk.Moonlight.Runtime.ArrivalOrder
import RemoteDesk.Moonlight.Core.HostMutation
import RemoteDesk.Moonlight.Core.HostTrust
import RemoteDesk.RustDesk.ContinuityRuns
import RemoteDesk.RustDesk.CursorRuns
import RemoteDesk.TerminalCore.DirtyRows
import RemoteDesk.TerminalCore.AltScreen
import RemoteDesk.Clipboard.WriteReceipts
import RemoteDesk.Clipboard.FileCapability
import RemoteDesk.Vnc.PlainPixel
import RemoteDesk.Vnc.RepeaterField
import RemoteDesk.Vnc.TextKeys
import RemoteDesk.TerminalCore.ScrollMargins
import RemoteDesk.Rdp.RouteIdentity
import RemoteDesk.Rdp.NegotiationParser
import RemoteDesk.Files.ManagedTransfer
import RemoteDesk.Sftp.TaskList
import RemoteDesk.Net.HappyEyeballs
import RemoteDesk.Net.LocalName
import RemoteDesk.Ssh.OperationRetry
import RemoteDesk.RustDesk.PeerStream
import RemoteDesk.SecurityKey.CtapHid
import RemoteDesk.SecurityKey.ReportDescriptor
import RemoteDesk.Ssh.ForwardingProfile
import RemoteDesk.RustDesk.GeometryGate
