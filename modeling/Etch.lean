import Etch.C.ArraylistRuns
import Etch.C.ArrayvalueConversions
import Etch.C.FlexbufferSizes
import Etch.C.LinkedListRuns
import Etch.C.MailboxBlocking
import Etch.C.MailboxConservation
import Etch.C.MapRoundTrip
import Etch.C.PacketizerReassembly
import Etch.C.TypeTables
import Etch.C.UnknownFields
import Etch.CSharp.FlexBufferRuns
import Etch.CSharp.JavaAgreement
import Etch.Compiler.Authorize
import Etch.Compiler.FormatStrings
import Etch.Compiler.Inheritance
import Etch.Compiler.Visibility
import Etch.Cpp.CollectionRoundTrips
import Etch.Cpp.Endcall
import Etch.Cpp.PacketizerFiltering
import Etch.Cpp.PlainMailboxManagerLocks
import Etch.Cpp.ReaderNulls
import Etch.Cpp.ReaderTermination
import Etch.Cpp.UrlAgreement
import Etch.Cpp.WriterCompleteness
import Etch.Go.IntegersForJava
import Etch.Go.Messagizer
import Etch.Go.PacketizerFraming
import Etch.Go.UnknownFields
import Etch.Java.ByteBufferPool
import Etch.Java.CircularQueueWakeup
import Etch.Java.FactoryTypes
import Etch.Java.FlexBufferBounds
import Etch.Java.HistoryMeans
import Etch.Java.KeepAlive
import Etch.Java.MailboxNotifications
import Etch.Java.MessageIds
import Etch.Java.Messagizer
import Etch.Java.PwAuth
import Etch.Java.SerializerRoundTrip
import Etch.Java.Tcp2Connection
import Etch.Java.TodoManager
import Etch.Java.TransportCall
import Etch.Java.UrlRoundTrip
import Etch.Java.WaitDeadlines
