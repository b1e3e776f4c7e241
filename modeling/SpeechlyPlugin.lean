import SpeechlyPlugin.Recorder.OneShot
import SpeechlyPlugin.Recorder.CarryOver
import SpeechlyPlugin.Recorder.Bounds
import SpeechlyPlugin.Recorder.UnitGain
import SpeechlyPlugin.Client.Shutdown
import SpeechlyPlugin.Plugin.Fold
import SpeechlyPlugin.Plugin.ThreadClient
import SpeechlyPlugin.Plugin.Reconnect
import SpeechlyPlugin.Plugin.Tail
import SpeechlyPlugin.Plugin.Active
import SpeechlyPlugin.Plugin.Accuracy
import SpeechlyPlugin.Plugin.Index
import SpeechlyPlugin.Plugin.View
import SpeechlyPlugin.Plugin.Consumer
import SpeechlyPlugin.Plugin.WrittenText
import SpeechlyPlugin.Plugin.SegmentEnd
import SpeechlyPlugin.Plugin.Segments
import SpeechlyPlugin.Plugin.UnicodeText
import SpeechlyPlugin.Proto.Responses
import SpeechlyPlugin.Proto.Sending
import SpeechlyPlugin.Client.Progress
import SpeechlyPlugin.Plugin.Listener
import SpeechlyPlugin.Plugin.Errors
