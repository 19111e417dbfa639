import SipTestbed.Bindings.Lemmas
import SipTestbed.Headers.Lemmas
import SipTestbed.Main
import SipTestbed.Proofs.IpText
import SipTestbed.Proofs.Text
import SipTestbed.Proofs.ParamsText
import SipTestbed.Proofs.ViaText
import SipTestbed.Proofs.HostText
import SipTestbed.Proofs.LineBreaks
import SipTestbed.Proofs.StampFrame
import SipTestbed.Proofs.SymmetricRouting
import SipTestbed.Proofs.Delivery
import SipTestbed.Proofs.LiveBindings
import SipTestbed.Proofs.Intent
import SipTestbed.Proofs.Ruling
import SipTestbed.Proofs.Gating
import SipTestbed.Proofs.ForeignDomain
import SipTestbed.Proofs.Reflection
import SipTestbed.Proofs.Answering
import SipTestbed.Proofs.Ledger
import SipTestbed.Proofs.Isolation
import SipTestbed.Proofs.OneLine
import SipTestbed.Proofs.ResponseText
import SipTestbed.Proofs.Echo
import SipTestbed.Proofs.Injection
import SipTestbed.Proofs.RoundTrip
import SipTestbed.Proofs.Granted
import SipTestbed.Proofs.ExpiresValue
import SipTestbed.Proofs.ReceiveLoop
import SipTestbed.Proofs.Registering
import SipTestbed.Proofs.UriText
import SipTestbed.Proofs.AddressText
import SipTestbed.Proofs.Tagging
import SipTestbed.Proofs.RequestText
import SipTestbed.Proofs.Reprint
import SipTestbed.Proofs.Multimap
import SipTestbed.Proofs.JsonText
import SipTestbed.Proofs.JsonPrinting
import SipTestbed.Proofs.Settings
import SipTestbed.Proofs.HostForms
import SipTestbed.Proofs.ViaUpdates
import SipTestbed.Proofs.BusText
import SipTestbed.Proofs.SetUp
