import SenseVoice.Bridge.App
import SenseVoice.Bridge.Segmenter
import SenseVoice.ControlPlane.Admission
import SenseVoice.ControlPlane.Affinity
import SenseVoice.ControlPlane.AllOrNothing
import SenseVoice.ControlPlane.Auth
import SenseVoice.ControlPlane.CommandLanguage
import SenseVoice.ControlPlane.Commands
import SenseVoice.ControlPlane.Config
import SenseVoice.ControlPlane.CreateSession
import SenseVoice.ControlPlane.Effects
import SenseVoice.ControlPlane.Grants
import SenseVoice.ControlPlane.Links
import SenseVoice.ControlPlane.Registry
import SenseVoice.ControlPlane.Relay
import SenseVoice.ControlPlane.Sockets
import SenseVoice.ControlPlane.State
import SenseVoice.ControlPlane.Steps
import SenseVoice.ControlPlane.System
import SenseVoice.Joint.DeadSessions
import SenseVoice.Joint.Invariants
import SenseVoice.Joint.Messages
import SenseVoice.Joint.Model
import SenseVoice.Joint.Orphans
import SenseVoice.Json
import SenseVoice.Lib.Channel
import SenseVoice.Lib.Run
import SenseVoice.Lib.Suffix
import SenseVoice.Lib.Table
import SenseVoice.Page.Events
import SenseVoice.Page.Readiness
import SenseVoice.Text
import SenseVoice.Bridge.AudioConservation
import SenseVoice.Bridge.Cleanup
import SenseVoice.Bridge.RealSession
import SenseVoice.Bridge.RecognitionSteps
import SenseVoice.Bridge.Recognition
import SenseVoice.Bridge.Overlaps
import SenseVoice.Bridge.AudioQueue
import SenseVoice.Bridge.LivekitReceiver
import SenseVoice.Bridge.Speaking
import SenseVoice.Bridge.BargeIn
import SenseVoice.ControlPlane.ClientLoop
import SenseVoice.ControlPlane.Isolation
import SenseVoice.Bridge.Endpointing
import SenseVoice.Bridge.Handling
import SenseVoice.Bridge.StartAnswers
import SenseVoice.Bridge.SessionTable
import SenseVoice.Bridge.HandlingSteps
import SenseVoice.ControlPlane.AgoraToken
import SenseVoice.Lib.JsonRoundTrip
import SenseVoice.Lib.Binary64
import SenseVoice.Lib.PyFloat
import SenseVoice.Serde
import SenseVoice.ControlPlane.LivekitToken
import SenseVoice.ControlPlane.Credentials
import SenseVoice.ControlPlane.Expiry
import SenseVoice.Bridge.ServerTiming
import SenseVoice.Page.Observations
import SenseVoice.Bridge.SummarizeTrace
import SenseVoice.Page.TraceReport
import SenseVoice.Page.Attribution
import SenseVoice.Bridge.Upsampling
import SenseVoice.Bridge.Onset
import SenseVoice.Bridge.Playout
import SenseVoice.Bridge.TerminalEvents
import SenseVoice.Bridge.PlayoutCompleteness
import SenseVoice.ControlPlane.Delivery
import SenseVoice.ControlPlane.Stamping
import SenseVoice.ControlPlane.Reaping
import SenseVoice.Bridge.PushQueue
import SenseVoice.ControlPlane.Roles
import SenseVoice.Bridge.Readers
import SenseVoice.Lib.Quantile
import SenseVoice.Page.Percentiles
import SenseVoice.Lib.FirstSeen
import SenseVoice.Bridge.ExtractText
import SenseVoice.Bridge.MockSession
import SenseVoice.Page.SampleSet
import SenseVoice.Bridge.NormalizeText
import SenseVoice.Lib.PyDecimal
import SenseVoice.Bridge.TimingHeaders
import SenseVoice.Bridge.AgoraReceiver
import SenseVoice.Bridge.AgoraLifecycle
import SenseVoice.Page.Acknowledging
import SenseVoice.Bridge.WaveFile
import SenseVoice.Lib.Base64
import SenseVoice.Bridge.AsrRequest
import SenseVoice.ControlPlane.Environment
import SenseVoice.Bridge.ServiceLoop
import SenseVoice.Bridge.ServiceRuns
import SenseVoice.Bridge.ServiceAgreement
import SenseVoice.Bridge.TtsRequest
import SenseVoice.Joint.Speech
import SenseVoice.ControlPlane.TokenSignature
