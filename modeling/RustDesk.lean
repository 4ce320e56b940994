import RustDesk.Config.PasswordState
import RustDesk.Config.TrustedDevices
import RustDesk.Config.PeerConfig
import RustDesk.Transport.Keyed
import RustDesk.Transport.SealedStream
import RustDesk.Fs.CmRead
import RustDesk.Fs.Transfer
import RustDesk.Server.Permissions
import RustDesk.Server.BeforeLogin
import RustDesk.Server.VideoService
import RustDesk.Server.Displays
import RustDesk.Server.PrivacyMode
import RustDesk.Terminal.Replay
import RustDesk.Client.NoDowngrade
import RustDesk.Client.KeysReleased
import RustDesk.Clipboard.PasteConfined
import RustDesk.Clipboard.PasteComplete
import RustDesk.Video.Codec
import RustDesk.Server.PortableFrames
import RustDesk.Server.PortableToken
import RustDesk.Server.KeysDown
import RustDesk.Fs.WritesConfined
import RustDesk.Tunnel.Steps
import RustDesk.Rendezvous.TokensKept
import RustDesk.Client.VideoThread
import RustDesk.Rendezvous.Confirmed
import RustDesk.Client.Rounds
import RustDesk.Client.SharedPassword
import RustDesk.Client.AudioAligned
import RustDesk.Client.WindowsKept
import RustDesk.KeyboardProxy.NeverStuck
import RustDesk.KeyboardProxy.EndsAgree
import RustDesk.KeyboardProxy.TypedText
import RustDesk.Ipc.SafeDirectory
import RustDesk.Tls.Consent
import RustDesk.Terminal.Utf8Chunks
import RustDesk.Server.OsLoginBackoff
import RustDesk.Config.StoredSecrets
import RustDesk.Server.CaptureDisplays
import RustDesk.Clipboard.FileListRoundTrip
import RustDesk.Clipboard.ServFiles
import RustDesk.Clipboard.FuseTree
import RustDesk.Clipboard.CopyPaste
import RustDesk.Clipboard.FileList
import RustDesk.Server.TemporaryPassword
import RustDesk.Video.Qos
import RustDesk.Server.FileRemoveLog
import RustDesk.Server.RdpInput
import RustDesk.Server.VersionNumber
import RustDesk.Rendezvous.AddrMangle
import RustDesk.Rendezvous.HostPort
import RustDesk.Fs.RemoveEmptyDirs
import RustDesk.Config.FileNameServer
import RustDesk.Http.DownloadsApart
import RustDesk.Http.UploadComplete
import RustDesk.Clipboard.RelayCurrent
import RustDesk.Server.UinputKeyboard
import RustDesk.Flutter.TerminalInput
import RustDesk.Client.ClipboardLoop
import RustDesk.Flutter.RelativeMouseLast
import RustDesk.Flutter.SoftKeyboard
import RustDesk.Http.ProxyAddress
import RustDesk.Portable.Setup
import RustDesk.Transport.WebrtcSessions
import RustDesk.Client.ShownDisplays
import RustDesk.Client.SoftRender
import RustDesk.Server.TouchInput
import RustDesk.Flutter.AbPull
import RustDesk.Flutter.LegacyAb
import RustDesk.Flutter.FileConflicts
import RustDesk.Terminal.OutputLines
import RustDesk.Terminal.Helper
import RustDesk.Clipboard.WaylandFilter
