import TinyMuduo.TimerBatch
import TinyMuduo.PollerWatch
import TinyMuduo.LoopPointer
import TinyMuduo.CloseOnce
import TinyMuduo.GracefulShutdown
import TinyMuduo.ConnectorReset
import TinyMuduo.TcpClient
import TinyMuduo.ConnectorAttempts
import TinyMuduo.DeadChannels
import TinyMuduo.ActiveChannels
import TinyMuduo.TimerAlarm
import TinyMuduo.FunctorOrder
import TinyMuduo.LostWakeup
import TinyMuduo.PollerDispatch
import TinyMuduo.OutputStream
import TinyMuduo.BufferQueue
import TinyMuduo.BufferShrink
import TinyMuduo.ConnectionLife
import TinyMuduo.EventLoopThreadPool
import TinyMuduo.PollerAgreement
import TinyMuduo.Logging
import TinyMuduo.TimeZone
import TinyMuduo.UtcTime
import TinyMuduo.ZoneSafety
import TinyMuduo.BlockingQueue
import TinyMuduo.CountDownLatch
import TinyMuduo.AsyncLoggingRuns
import TinyMuduo.AsyncLoggingQueue
import TinyMuduo.ThreadPoolStop
import TinyMuduo.SignalSlot
import TinyMuduo.PeerStream
import TinyMuduo.ServerSockets
import TinyMuduo.MutexLock
import TinyMuduo.ThreadObject
import TinyMuduo.InetAddress
import TinyMuduo.LoopThreads
import TinyMuduo.TimestampText
