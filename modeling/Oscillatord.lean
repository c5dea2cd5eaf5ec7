import Oscillatord.Library.Runs
import Oscillatord.Gnss.Session
import Oscillatord.Gnss.Thread
import Oscillatord.Oscillators.Sa5x
import Oscillatord.Oscillators.Sa5xHoldover
import Oscillatord.Phasemeter
import Oscillatord.Library.Lists
import Oscillatord.Library.Rounding
import Oscillatord.Oscillators.Mro50
import Oscillatord.Daemon.MainLoop
import Oscillatord.Daemon.Effects
import Oscillatord.Daemon.PhaseSign
import Oscillatord.Monitoring.Mailbox
import Oscillatord.Eeprom.Layout
import Oscillatord.Eeprom.EepromConfig
import Oscillatord.Eeprom.Read
import Oscillatord.Eeprom.PackedLayout
import Oscillatord.Eeprom.RoundTrip
import Oscillatord.Eeprom.Write
import Oscillatord.Library.Frames
import Oscillatord.Library.JsonObject
import Oscillatord.Monitoring.Peer
import Oscillatord.Monitoring.Framing
import Oscillatord.Daemon.FreshInput
import Oscillatord.Eeprom.Legacy
import Oscillatord.Oscillators.Sa5xPhase
import Oscillatord.Daemon.SaveThread
import Oscillatord.Gnss.PtpClock
import Oscillatord.Daemon.GnssActions
import Oscillatord.Eeprom.Tools
import Oscillatord.Gnss.Configuration
import Oscillatord.Daemon.ConcurrentSaves
import Oscillatord.Config.ConfigFile
import Oscillatord.Gnss.TimTp
import Oscillatord.Monitoring.Server
import Oscillatord.Monitoring.ServerRun
import Oscillatord.Monitoring.Responses
import Oscillatord.Monitoring.Isolation
import Oscillatord.Gnss.Rtcm
import Oscillatord.Gnss.Lifecycle
import Oscillatord.Library.Handles
import Oscillatord.Oscillators.Descriptors
import Oscillatord.Library.ConditionWait
import Oscillatord.Daemon.WaitingReaders
import Oscillatord.Daemon.SavePaths
import Oscillatord.Library.CText
import Oscillatord.Oscillators.Mro50Calibration
import Oscillatord.Gnss.TaiConversion
import Oscillatord.Eeprom.Determined
import Oscillatord.Library.FloatText
import Oscillatord.Eeprom.Consumers
import Oscillatord.Oscillators.Sa5xAnswers
import Oscillatord.Eeprom.Manufacturing
import Oscillatord.Library.FloatTrip
import Oscillatord.Eeprom.TextFile
import Oscillatord.Library.JsonValue
import Oscillatord.Monitoring.Client
import Oscillatord.Daemon.PhaseSplit
import Oscillatord.Gnss.Antenna
import Oscillatord.Gnss.LeapWarning
import Oscillatord.Gnss.MessageTypes
import Oscillatord.Gnss.UtcTime
import Oscillatord.Daemon.CoarseSteps
import Oscillatord.Library.ReadLoop
import Oscillatord.Oscillators.SerialLoop
import Oscillatord.Oscillators.Mro50Reset
import Oscillatord.Library.FormatScan
import Oscillatord.Oscillators.Sa3x
import Oscillatord.Library.Isolation
import Oscillatord.Library.NumberEnds
import Oscillatord.Oscillators.Mro50Replies
import Oscillatord.Oscillators.Sa5xReplies
import Oscillatord.Oscillators.ReplyIsolation
import Oscillatord.PhasemeterStop
import Oscillatord.Config.ConfigLines
import Oscillatord.Config.MinipodConfig
import Oscillatord.Gnss.ReceiverVersion
import Oscillatord.Eeprom.TemperatureSteps
import Oscillatord.Monitoring.ParametersJson
import Oscillatord.Eeprom.TemperatureText
import Oscillatord.Eeprom.TemperatureInput
import Oscillatord.Eeprom.TemperatureRoundTrip
import Oscillatord.Gnss.ConfigItems
import Oscillatord.Gnss.ConfigGrammar
import Oscillatord.Gnss.ConfigList
import Oscillatord.Library.Crc
import Oscillatord.Eeprom.BurstErrors
import Oscillatord.Library.CivilCalendar
import Oscillatord.Library.Seqlock
import Oscillatord.Library.SeqlockConsumers
import Oscillatord.Library.SlotPool
import Oscillatord.Ntpshm.Gmtime
import Oscillatord.Ntpshm.Links
import Oscillatord.Ntpshm.PpsThread
import Oscillatord.Ntpshm.PulseTrain
import Oscillatord.Ntpshm.Readers
import Oscillatord.Ntpshm.Service
import Oscillatord.Config.Devices
import Oscillatord.Ntpshm.KernelPps
import Oscillatord.Ntpshm.LeapNotice
import Oscillatord.Ntpshm.PpsStop
import Oscillatord.Daemon.MainLife
import Oscillatord.Library.CircularBuffer
import Oscillatord.Library.EnvzPointers
import Oscillatord.Monitoring.ModelName
import Oscillatord.Oscillators.Factory
import Oscillatord.Simulation.Ptspair
import Oscillatord.Oscillators.Sa5xAttributes
