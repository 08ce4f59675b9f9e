import Otpd.Frame
import Otpd.Replay
import Otpd.Concurrent
import Otpd.Helix
import Otpd.Nonce
import Otpd.LockChains
import Otpd.StaleLock
import Otpd.Restart
import Otpd.WorkThread
import Otpd.EventWindow
import Otpd.TwoRuns
import Otpd.PutText
import Otpd.PasswdRecord
import Otpd.FailoverProbe
import Otpd.FailoverSwitch
import Otpd.FrameLengths
import Otpd.StaticPassword
import Otpd.LdapRecord
import Otpd.LdapTimeout
import Otpd.ConfigTimeouts
import Otpd.KeyTable
import Otpd.AsyncResync
import Otpd.LdapPool
import Otpd.AsyncWait
import Otpd.HotpSync
import Otpd.ResyncTool
import Otpd.HotpCounter
import Otpd.ResyncSearch
import Otpd.HotpDigits
import Otpd.TimeCounter
import Otpd.SoftfailDelay
import Otpd.ResponseLength
import Otpd.X99Blocks
import Otpd.NullState
import Otpd.StateBounds
import Otpd.KeyidCheck
import Otpd.Lib.HashChains
import Otpd.HelixSchedule
import Otpd.HexCodec
import Otpd.DecryptLoop
import Otpd.GsmdRegistry
import Otpd.LdapFilter
import Otpd.Lib.Files
import Otpd.StateDir
import Otpd.StateOwn
import Otpd.StateStore
import Otpd.Lib.Scanner
import Otpd.ConfigLexer
import Otpd.Lib.Sections
import Otpd.ConfigGrammar
import Otpd.Lib.Layout
import Otpd.Wire
import Otpd.Connection
import Otpd.Otpauth
import Otpd.Daemon
import Otpd.Lib.Settings
import Otpd.ConfigVars
import Otpd.ConfigFile
import Otpd.ConfigMemory
import Otpd.ConfigComplete
import Otpd.ConfigKeys
