import ScryProxy.Spec.AdminDetection
import ScryProxy.Spec.AdminReplies
import ScryProxy.Spec.AuthPanics
import ScryProxy.Spec.AuthStream
import ScryProxy.Spec.BreakerClock
import ScryProxy.Spec.BreakerHistory
import ScryProxy.Spec.BreakerTraffic
import ScryProxy.Spec.BuiltErrors
import ScryProxy.Spec.CanonicalParams
import ScryProxy.Spec.CleanTexts
import ScryProxy.Spec.ErrorText
import ScryProxy.Spec.EventConservation
import ScryProxy.Spec.Fingerprints
import ScryProxy.Spec.FrontendEncoding
import ScryProxy.Spec.HalfClose
import ScryProxy.Spec.HealthVerdict
import ScryProxy.Spec.HotFingerprints
import ScryProxy.Spec.LabelEscaping
import ScryProxy.Spec.LiteralPins
import ScryProxy.Spec.LiteralVerdicts
import ScryProxy.Spec.LockPins
import ScryProxy.Spec.Md5Login
import ScryProxy.Spec.NamedPins
import ScryProxy.Spec.ParamShapes
import ScryProxy.Spec.PoolWaiting
import ScryProxy.Spec.PreparedPins
import ScryProxy.Spec.QueryDeadline
import ScryProxy.Spec.RegistryTruth
import ScryProxy.Spec.RetryBounds
import ScryProxy.Spec.RowNames
import ScryProxy.Spec.ScramTranscript
import ScryProxy.Spec.SessionPins
import ScryProxy.Spec.ShutdownWait
import ScryProxy.Spec.StartupParameters
import ScryProxy.Spec.StartupPaths
import ScryProxy.Spec.StatementEvents
import ScryProxy.Spec.StatementLru
import ScryProxy.Spec.StatementTracking
import ScryProxy.Spec.StickyLife
import ScryProxy.Spec.StrandedWaiters
import ScryProxy.Spec.TerminateInterception
import ScryProxy.Spec.UnknownTexts
import ScryProxy.Spec.UnstartedBackend
import ScryProxy.Spec.UnusableAuth
import ScryProxy.Spec.Userlist
