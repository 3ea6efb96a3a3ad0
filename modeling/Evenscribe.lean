import Evenscribe.Foundation.Quoting
import Evenscribe.Foundation.Reading
import Evenscribe.Foundation.Locality
import Evenscribe.Foundation.Threads
import Evenscribe.Foundation.Monitor
import Evenscribe.Foundation.Marked
import Evenscribe.Foundation.Directories
import Evenscribe.Text
import Evenscribe.Param
import Evenscribe.Helper
import Evenscribe.Helper.CreatePath
import Evenscribe.Log
import Evenscribe.Json.ParseShape
import Evenscribe.Serializer.Framing
import Evenscribe.Serializer.Schema
import Evenscribe.Serializer.Accepted
import Evenscribe.Serializer.Report
import Evenscribe.Config.ClientOptions
import Evenscribe.Config.ConnectionUri
import Evenscribe.Pipeline.Batch
import Evenscribe.Pipeline.Connections
import Evenscribe.Pipeline.Buffers
import Evenscribe.Sql.PostgresRoundTrip
import Evenscribe.Sql.ClickhouseRoundTrip
import Evenscribe.Sql.SafeLogs
import Evenscribe.Pipeline.Failure
import Evenscribe.Pipeline.Descriptors
import Evenscribe.Pipeline.Order
import Evenscribe.Serializer.Printed
import Evenscribe.Pipeline.Delivery
import Evenscribe.Serializer.Heap
import Evenscribe.Config.Heap
