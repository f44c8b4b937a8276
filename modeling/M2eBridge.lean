import M2eBridge.Aliases
import M2eBridge.ApiHelpers
import M2eBridge.ConfigFiles
import M2eBridge.ConnectorFactory
import M2eBridge.Connectors.Connector
import M2eBridge.Connectors.EmailConnector
import M2eBridge.Connectors.HttpConnector
import M2eBridge.Connectors.Insertion
import M2eBridge.Connectors.MqttConnector
import M2eBridge.Connectors.ObjectNames
import M2eBridge.Connectors.PostgreSqlConnector
import M2eBridge.Connectors.ServiceBusConnector
import M2eBridge.Connectors.ServiceBusReads
import M2eBridge.Connectors.ServiceBusTokens
import M2eBridge.Connectors.SqliteConnector
import M2eBridge.Database.Authbundle
import M2eBridge.Database.AuthbundleStore
import M2eBridge.Database.Converter
import M2eBridge.Database.Handles
import M2eBridge.Database.Sqlite
import M2eBridge.Filtra
import M2eBridge.Filtras.Agreement
import M2eBridge.Filtras.Builder
import M2eBridge.Filtras.BuilderShape
import M2eBridge.Filtras.Carried
import M2eBridge.Filtras.Chain
import M2eBridge.Filtras.Comparator
import M2eBridge.Filtras.ConverterLua
import M2eBridge.Filtras.Encodings
import M2eBridge.Filtras.Factory
import M2eBridge.Filtras.FilterChains
import M2eBridge.Filtras.Filters
import M2eBridge.Filtras.Negation
import M2eBridge.Filtras.Reading
import M2eBridge.Filtras.Throttle
import M2eBridge.Fleet
import M2eBridge.GlobalConfig
import M2eBridge.InternalConnector
import M2eBridge.InternalQueue
import M2eBridge.InternalTraffic
import M2eBridge.Json
import M2eBridge.JsonMerge
import M2eBridge.Lib.Base64
import M2eBridge.Lib.Delimited
import M2eBridge.Lib.Fields
import M2eBridge.Lib.Fuel
import M2eBridge.Lib.Layers
import M2eBridge.Lib.Lua
import M2eBridge.Lib.Parts
import M2eBridge.Lib.Peg
import M2eBridge.Lib.Progress
import M2eBridge.Lib.Rounding
import M2eBridge.Lib.Runs
import M2eBridge.Lib.Slices
import M2eBridge.Lib.Spacing
import M2eBridge.Lib.StopLoop
import M2eBridge.Lib.Traces
import M2eBridge.Listeners.HttpChannel
import M2eBridge.Listeners.HttpDisabled
import M2eBridge.Listeners.HttpIngest
import M2eBridge.Listeners.HttpListener
import M2eBridge.Listeners.HttpPost
import M2eBridge.Listeners.HttpRelay
import M2eBridge.Listeners.HttpReload
import M2eBridge.Listeners.HttpRequests
import M2eBridge.Listeners.HttpUpdate
import M2eBridge.Message
import M2eBridge.MessageReads
import M2eBridge.MessageWrapper
import M2eBridge.Messages.Copies
import M2eBridge.Messages.Documents
import M2eBridge.Messages.Payloads
import M2eBridge.Pipeline.Acts
import M2eBridge.Pipeline.Arrival
import M2eBridge.Pipeline.Bridge
import M2eBridge.Pipeline.Cargo
import M2eBridge.Pipeline.Construct
import M2eBridge.Pipeline.Control
import M2eBridge.Pipeline.Course
import M2eBridge.Pipeline.Delivery
import M2eBridge.Pipeline.Errors
import M2eBridge.Pipeline.Events
import M2eBridge.Pipeline.Handle
import M2eBridge.Pipeline.Join
import M2eBridge.Pipeline.Managed
import M2eBridge.Pipeline.Meaning
import M2eBridge.Pipeline.Order
import M2eBridge.Pipeline.Orderly
import M2eBridge.Pipeline.Places
import M2eBridge.Pipeline.Prepare
import M2eBridge.Pipeline.Progress
import M2eBridge.Pipeline.Redirects
import M2eBridge.Pipeline.Relay
import M2eBridge.Pipeline.Restart
import M2eBridge.Pipeline.Sequential
import M2eBridge.Pipeline.Slots
import M2eBridge.Pipeline.State
import M2eBridge.Pipeline.Stream
import M2eBridge.Pipeline.Subscription
import M2eBridge.Pipeline.Terminate
import M2eBridge.Pipeline.Threads
import M2eBridge.Pipeline.Wakeup
import M2eBridge.PipelineConfigsIterator
import M2eBridge.PipelineFiles
import M2eBridge.PipelineListing
import M2eBridge.Process.Complete
import M2eBridge.Process.Forward
import M2eBridge.Process.Goto
import M2eBridge.Process.Metadata
import M2eBridge.Process.Reject
import M2eBridge.Process.Walk
import M2eBridge.QueueCalls
import M2eBridge.Reboot
import M2eBridge.RestApi
import M2eBridge.RestRequests
import M2eBridge.Segments
import M2eBridge.Splitter
import M2eBridge.SplitterStream
import M2eBridge.Substitutions.CborAccess
import M2eBridge.Substitutions.Encodings
import M2eBridge.Substitutions.Environment
import M2eBridge.Substitutions.Evaluates
import M2eBridge.Substitutions.Expression
import M2eBridge.Substitutions.Integers
import M2eBridge.Substitutions.Objects
import M2eBridge.Substitutions.Paths
import M2eBridge.Substitutions.Repeat
import M2eBridge.Substitutions.Steady
import M2eBridge.Substitutions.Template
import M2eBridge.Supervisor
import M2eBridge.TSQueue
import M2eBridge.Validator
import M2eBridge.ZmqApi
import M2eBridge.ZmqListener
