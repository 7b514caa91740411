import NoPorts.Lib.Machine
import NoPorts.Lib.Locked
import NoPorts.Lib.RefStore
import NoPorts.Lib.Json
import NoPorts.Lib.Except
import NoPorts.Lib.Text
import NoPorts.NppModels
import NoPorts.NppCache
import NoPorts.NppDecision
import NoPorts.NppSpelling
import NoPorts.NppManager
import NoPorts.NppIntegrity
import NoPorts.NppPersistence
import NoPorts.NppStored
import NoPorts.EnrollmentSignature
import NoPorts.EnrollmentSignatureC
import NoPorts.EnrollmentSignatureAgreement
import NoPorts.SrvdModels
import NoPorts.RelayAuthEscr
import NoPorts.RelayAuthEscrSound
import NoPorts.Lib.Piped
import NoPorts.RelaySocketAuto
import NoPorts.RelaySocketAutoStream
import NoPorts.RelaySocketAutoMode
import NoPorts.RelaySocketEscr
import NoPorts.RelaySocketEscrStream
import NoPorts.CDaemonPolicy
import NoPorts.CPolicyGate
import NoPorts.CDaemonPermitopen
import NoPorts.PermitOpenAgreement
import NoPorts.CDaemonRequests
import NoPorts.CDaemonSessions
import NoPorts.CDaemonLoop
import NoPorts.CDaemonLoopSafe
import NoPorts.CDaemonSessionTable
import NoPorts.Lib.Table
import NoPorts.SrvdSigningKeys
import NoPorts.SinglePortWorker
import NoPorts.Lib.CString
import NoPorts.CSrvControl
import NoPorts.SrvControl
import NoPorts.Lib.Base64
import NoPorts.Lib.StreamCipher
import NoPorts.ConnectMessage
import NoPorts.ConnectMessageC
import NoPorts.ConnectAgreement
import NoPorts.SrvdSessions
import NoPorts.SrvdSessionTable
import NoPorts.Lib.JsonText
import NoPorts.Lib.Pkcs7
import NoPorts.EscrResponse
import NoPorts.EscrResponseAgreement
import NoPorts.Lib.Lines
import NoPorts.AuthorizedKeys
import NoPorts.AuthorizedKeysKept
import NoPorts.MultiTunnel
import NoPorts.ClientSessions
import NoPorts.SshnpdChannel
import NoPorts.NptSession
import NoPorts.Lib.Pump
import NoPorts.ArduinoRelaySub
import NoPorts.ArduinoRelayDelivery
import NoPorts.ArduinoRelaySlots
import NoPorts.ArduinoClientKeys
import NoPorts.ArduinoPolicy
import NoPorts.ArduinoSocketBudget
import NoPorts.SshnpdRequests
import NoPorts.ClientResponses
import NoPorts.Lib.JsonUnits
import NoPorts.EventEnvelope
import NoPorts.GroupPolicies
import NoPorts.Lib.Replica
import NoPorts.GroupReplicas
import NoPorts.CSrvRelay
import NoPorts.ProfileSession
import NoPorts.NppPruned
import NoPorts.NppDaemonGate
import NoPorts.CDaemonUtf8
import NoPorts.CDaemonNormalize
import NoPorts.CPolicyThrottle
import NoPorts.CPermitopenExact
import NoPorts.CPermitopenAdvertised
import NoPorts.NppAccounting
import NoPorts.Lib.Semaphore
import NoPorts.PublicLookup
import NoPorts.RelayAuthenticator
import NoPorts.NotificationRouting
import NoPorts.PolicyAnswers
import NoPorts.PushedKeys
import NoPorts.ConnectSockets
import NoPorts.ClientSrvCleanup
import NoPorts.Lib.Seen
import NoPorts.SrvProcessStart
import NoPorts.SshnpdStop
import NoPorts.LegacyReverse
import NoPorts.PrivateKeys
import NoPorts.SshnpdSessions
import NoPorts.ReverseSsh
import NoPorts.SshnpParams
import NoPorts.SshnpProfile
import NoPorts.SshnpPrecedence
import NoPorts.CDaemonManagers
import NoPorts.CSrvStarts
import NoPorts.CSrvSessions
import NoPorts.ArduinoKeyTurns
import NoPorts.ArduinoEviction
import NoPorts.ArduinoPermits
import NoPorts.FilePolicy
import NoPorts.PolicyInfoRpc
import NoPorts.CPolicyCheck
import NoPorts.DirectSshStart
import NoPorts.Lib.Lowest
import NoPorts.RelaySelection
import NoPorts.RelaySelectionSafe
import NoPorts.Lib.StreamController
import NoPorts.AesCtrTransformer
import NoPorts.ProfileRepository
import NoPorts.Lib.PercentEncoding
import NoPorts.Lib.CAppend
import NoPorts.CPublicLookupUrl
import NoPorts.CFormatList
import NoPorts.CArgparse
import NoPorts.CSrvParams
import NoPorts.CSrvWorker
import NoPorts.SshnpdAnswers
import NoPorts.SessionKeys
import NoPorts.RelaySocketLegacy
import NoPorts.RelayMessages
import NoPorts.RelayAuthModes
import NoPorts.LegacyAuthentication
import NoPorts.ApkamSigning
import NoPorts.EscrAnswers
import NoPorts.EscrLink
import NoPorts.EscrHandshake
import NoPorts.EncryptedTunnel
