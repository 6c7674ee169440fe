import LoraMessenger.BigEndian
import LoraMessenger.ReassemblyComplete
import LoraMessenger.ReassemblySound
import LoraMessenger.SchedulerTrace
import LoraMessenger.RadioInput
import LoraMessenger.ReceivePipeline
import LoraMessenger.TimelineRun
import LoraMessenger.RadioPolicy
import LoraMessenger.Restart
import LoraMessenger.InstallIdentity
import LoraMessenger.AtomicSave
import LoraMessenger.HistoryRoundTrip
import LoraMessenger.HistoryMigration
import LoraMessenger.HistorySimulation
import LoraMessenger.HistoryOpening
import LoraMessenger.DedupeRun
import LoraMessenger.MessengerState
import LoraMessenger.Quarantine
import LoraMessenger.IngressRun
import LoraMessenger.BusyQueue
import LoraMessenger.BurstErrors
import LoraMessenger.DatagramTransports
import LoraMessenger.BusOrder
import LoraMessenger.RadioAccounting
import LoraMessenger.ViewGuards
import LoraMessenger.AppScripted
import LoraMessenger.JsonLanguage
import LoraMessenger.KeyCodec
import LoraMessenger.Network
import LoraMessenger.InboundDrain
import LoraMessenger.Delivery
import LoraMessenger.CapLoraLink
import LoraMessenger.AppStation
