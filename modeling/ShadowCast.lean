import ShadowCast.AudioAccounting
import ShadowCast.AudioConservation
import ShadowCast.TimedReceive
import ShadowCast.DrmSession
import ShadowCast.EncoderDrain
import ShadowCast.EncoderBackpressure
import ShadowCast.StaleDescriptors
import ShadowCast.Base64Grammar
import ShadowCast.VideoTimeline
import ShadowCast.CommandLineRoundTrip
import ShadowCast.StopRequests
import ShadowCast.FrameReleases
import ShadowCast.StreamPollPlaces
import ShadowCast.UnixSocket
import ShadowCast.ServiceBalance
import ShadowCast.Parameters
import ShadowCast.PlaneProperties
import ShadowCast.Histogram
import ShadowCast.BufferRuns
import ShadowCast.IntrusiveListMoves
import ShadowCast.PoolConservation
import ShadowCast.EncoderListsRefinement
import ShadowCast.KmsProcess
import ShadowCast.SharedPlanes
import ShadowCast.RecordingResources
import ShadowCast.RecordingEncoders
import ShadowCast.ColorConverterRuns
import ShadowCast.ChildProcesses
import ShadowCast.Interrupts
