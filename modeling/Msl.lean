import Msl.Values
import Msl.Stream
import Msl.Flush
import Msl.Step
import Msl.Trace
import Msl.Callbacks
import Msl.Header
import Msl.Sequential
import Msl.Delivery
import Msl.Failures
import Msl.X509
import Msl.Accounting
import Msl.Interleaving
import Msl.MockContext
import Msl.Readiness
