import AppXd.Lib.Search
import AppXd.Lib.Ring
import AppXd.Lib.CString
import AppXd.Lib.HeldText
import AppXd.Lib.CArray
import AppXd.Lib.Tokens
import AppXd.Lib.Trace
import AppXd.Lib.Serial
import AppXd.Lib.Links
import AppXd.Lib.BlockCipher
import AppXd.Lib.BlockHash
import AppXd.Lib.ReflectedCrc
import AppXd.Lib.LastWrite
import AppXd.Net4g.Config
import AppXd.Net4g.Fifo
import AppXd.Net4g.CircularAppend
import AppXd.Net4g.KeySearch
import AppXd.Net4g.KeyReads
import AppXd.Net4g.CellInfo
import AppXd.Net4g.AtValue
import AppXd.Net4g.RecvCmd
import AppXd.Net4g.GetRecvCmd
import AppXd.Net4g.Link
import AppXd.Net4g.RingSearch
import AppXd.Net4g.SearchRows
import AppXd.Net4g.RecvSpec
import AppXd.Net4g.Framing
import AppXd.Net4g.FifoReads
import AppXd.Net4g.FifoIndex
import AppXd.Net4g.PbKeywords
import AppXd.Net4g.Downlink
import AppXd.Net4g.SendQueue
import AppXd.Net4g.Device
import AppXd.Net4g.Command
import AppXd.Net4g.ConfigCommand
import AppXd.Net4g.ConfigSteps
import AppXd.Net4g.RspAnalyze
import AppXd.Net4g.Replay
import AppXd.Net4g.SlotAddress
import AppXd.Net4g.Ota
import AppXd.Net4g.ConfigMarkers
import AppXd.Net4g.ConfigSet
import AppXd.Net4g.ClientIds
import AppXd.Net4g.SlotDisable
import AppXd.Net4g.AtCommand
import AppXd.Net4g.CallbackBuffers
import AppXd.Net4g.NetConfig
import AppXd.Net4g.SimFailover
import AppXd.Net4g.HttpRsp
import AppXd.Net4g.HttpBody
import AppXd.Net4g.Route
import AppXd.Net4g.BrokerSplit
import AppXd.Net4g.Activation
import AppXd.Net4g.ActiveProcess
import AppXd.Net4g.SendData
import AppXd.Net4g.PublishCount
import AppXd.Net4g.Communication
import AppXd.Net4g.CmdQueue
import AppXd.Net4g.Notice
import AppXd.Net4g.WorkProcess
import AppXd.Net4g.Handshake
import AppXd.Net4g.Unread
import AppXd.Net4g.Reconnect
import AppXd.Net4g.Freshness
import AppXd.Net4g.Answers
import AppXd.Net4g.NoticeLoss
import AppXd.Net4g.LendingGrace
import AppXd.Net4g.SignalPaths
import AppXd.Net4g.CellFields
import AppXd.SimUart.Uart
import AppXd.SimUart.Loopback
import AppXd.SimUart.Task
import AppXd.SimUart.Reception
import AppXd.SimUart.Transmission
import AppXd.Secrypto.Aes
import AppXd.Secrypto.Ecb
import AppXd.Secrypto.Base64
import AppXd.Secrypto.Crc
import AppXd.Secrypto.Md5
import AppXd.Net4g.Payload
import AppXd.Net4g.Topic
import AppXd.Net4g.WifiSwitch
import AppXd.Net4g.DelayedSwitch
import AppXd.Net4g.CommandReads
import AppXd.Net4g.AtKeywords
import AppXd.Mqtt.Packet
import AppXd.Mqtt.Client
import AppXd.Mqtt.ReadPacket
import AppXd.Mqtt.SessionLog
import AppXd.Mqtt.ConnectTruth
import AppXd.Mqtt.Session
import AppXd.Lib.Base128
import AppXd.Lib.TopicFilter
import AppXd.Lib.Records
import AppXd.Mqtt.Serialize
import AppXd.Mqtt.Deserialize
import AppXd.Mqtt.PacketFormat
import AppXd.Mqtt.SubscribeFormat
import AppXd.Mqtt.ConnectFormat
import AppXd.Mqtt.WireClient
import AppXd.Mqtt.Deliver
import AppXd.Mqtt.TcpRead
import AppXd.Mqtt.Incoming
import AppXd.Nanopb.Varint
import AppXd.Nanopb.Descriptor
import AppXd.Nanopb.Decode
import AppXd.Nanopb.Merge
import AppXd.Nanopb.Encode
import AppXd.Nanopb.Format
import AppXd.Nanopb.Compat
import AppXd.Nanopb.CText
import AppXd.Nanopb.RoutePb
import AppXd.Net4g.CloudMessages
import AppXd.Lib.StepTable
import AppXd.Net4g.RouteProcess
import AppXd.Net4g.CloudLogin
import AppXd.Net4g.ErrorHandle
import AppXd.Net4g.RebootProcess
import AppXd.Net4g.System
import AppXd.Net4g.SilentStart
