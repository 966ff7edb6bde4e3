import Dump978.Common
import Dump978.Protocol
import Dump978.Fec
import Dump978.RawMessage
import Dump978.Adsb
import Dump978.Demodulator
import Dump978.Receiver
import Dump978.RawFormat
import Dump978.Stratux
import Dump978.RawInput
import Dump978.MessageDispatch
import Dump978.Slicing
import Dump978.Convert
import Dump978.WindowScan
import Dump978.SocketOutput
import Dump978.Track
import Dump978.RsCommon
import Dump978.Tracker
import Dump978.SampleSource
import Dump978.SoapySource
import Dump978.AdsbJson
