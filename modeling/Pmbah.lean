import Pmbah.Admission.AdmissionRun
import Pmbah.Admission.SameNetwork
import Pmbah.Analysis.DelayCounts
import Pmbah.Analysis.LengthAgreement
import Pmbah.Analysis.ReadView
import Pmbah.Browser.CaptureParity
import Pmbah.Browser.FreezeAnswers
import Pmbah.Browser.HonestCapture
import Pmbah.Browser.RichTextOrder
import Pmbah.Emacs.CrashSafety
import Pmbah.Emacs.JournalManifest
import Pmbah.Emacs.QueueBound
import Pmbah.Format.BindingWindows
import Pmbah.Format.CanonicalEncoding
import Pmbah.Format.RecordHash
import Pmbah.Format.StreamVerifier
import Pmbah.Library.OrderedMap
import Pmbah.Producer.Acknowledgement
import Pmbah.Producer.AppendMutation
import Pmbah.Producer.FlushObservation
import Pmbah.Producer.MigrationRuns
import Pmbah.Producer.OneContinuation
import Pmbah.Producer.Retention
import Pmbah.Producer.SignedAgain
import Pmbah.Store.Base58
import Pmbah.Store.Finality
import Pmbah.Store.PagedVerification
import Pmbah.Store.SignatureRuns
import Pmbah.Web.FaithfulAxis
import Pmbah.Web.Grouping
import Pmbah.Web.SettledWrites
