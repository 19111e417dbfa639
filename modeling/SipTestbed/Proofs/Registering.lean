import SipTestbed.Proofs.ExpiresValue
import SipTestbed.Proofs.Granted
import SipTestbed.Proofs.Reflection

/-! What a well-formed registration comes to. The time it asks for is told by the header, the
contact or the default, in this order, and is cut down to the longest. A user is bound for that very
time and told so, or the binding is removed if the time is zero. -/
namespace SipTestbed

open Text (OneLine)

/-- The time that is asked for: none if the header tells no number, while a contact that tells none
is passed over. -/
def Request.wish? (default : Nat) (contact : Address) (r : Request) : Option Nat :=
  match r.headers.get? "expires".toList with
  | some text => Decimal.readU64? (Text.trim text)
  | none => some (((contact.params.value? "expires".toList).bind Decimal.readU64?).getD default)

theorem Request.wish?_eq (default : Nat) (contact : Address) (r : Request) :
    r.wish? default contact =
      match Intent.expiresText? r with
      | some text => Decimal.readU64? text
      | none =>
        some (((contact.params.value? "expires".toList).bind Decimal.readU64?).getD default) := by
  rw [wish?, Intent.expiresText?]
  cases r.headers.get? "expires".toList <;> rfl

theorem Intent.seconds_eq (default : Nat) (contact : Address) (r : Request) :
    seconds default (expiresText? r) contact =
      match r.wish? default contact with
      | none => .error (.invalidExpires ((expiresText? r).getD []))
      | some x => .ok (min x maxExpiry) := by
  rw [Request.wish?_eq]
  cases expiresText? r with
  | none => rfl
  | some text =>
    simp only [seconds]
    cases Decimal.readU64? text <;> rfl

theorem Intent.ofContact_wish {default : Nat} {r : Request} {text : Text} {contact : Address}
    {domain : Uri} (ha : Address.parse text = .ok contact) (hd : Uri.parse r.uri = .ok domain)
    (port : UInt16) : ofContact default port r text =
      match r.wish? default contact with
      | none => .error (.invalidExpires ((expiresText? r).getD []))
      | some x =>
        if min x maxExpiry = 0 then .ok .remove
        else .ok (.bind domain (fillPort port contact.uri) (min x maxExpiry)) := by
  rw [ofContact_eq, ha]
  simp only [seconds_eq, hd]
  cases r.wish? default contact <;> rfl

namespace Registrar

/-- A registration of a user in the domain, with a contact and a deliverable reply, well before the
end of the clock. -/
structure Accepts (w : World) (req : Request) (user : Uri) (contact : Address) (dest : Endpoint)
    (r : Registrar) : Prop where
  names : req.Names user
  user : r.bindings.serves user = true
  domain : ∃ d, Uri.parse req.uri = .ok d ∧ r.bindings.serves d = true
  contact : ∃ text, req.headers.get? "contact".toList = some text ∧
    Address.parse text = .ok contact
  via : ∃ v, req.via? = some v ∧ v.destination w = .ok dest
  clock : w.now + 4294967296 * second ≤ clockLimit

def Outcome.Confirms (w : World) (dest : Endpoint) (reg : Registration) (o : Outcome) : Prop :=
  o.result = (if w.networkUp then .ok () else .error .io) ∧
    ∃ resp : Response, o.sent = [⟨dest, resp.encode, w.networkUp⟩] ∧ resp.code = 200 ∧
      resp.headers.getAll "contact".toList = [['<'] ++ reg.contact.render ++ ['>']] ∧
      resp.headers.getAll "expires".toList = [Decimal.write reg.seconds]

/-- What is sent is read back as a 200 that tells a registration. -/
def Outcome.Tells (reg : Registration) (o : Outcome) : Prop :=
  ∃ (a : Attempt) (back : Response), o.sent = [a] ∧ Message.parse a.data = .ok (.response back) ∧
    back.code = 200 ∧
    back.headers.getAll "contact".toList = [['<'] ++ reg.contact.render ++ ['>']] ∧
    back.headers.getAll "expires".toList = [Decimal.write reg.seconds]

variable {w : World} {req : Request} {user : Uri} {contact : Address} {dest : Endpoint}
  {r : Registrar}

theorem getAll_contact_reread (fresh : Fresh) (req : Request) (reg : Registration) :
    (confirmation fresh req reg).reread.headers.getAll "contact".toList =
      [['<'] ++ reg.contact.render ++ ['>']] := by
  have htrim : Text.trim (['<'] ++ reg.contact.render ++ ['>']) =
      ['<'] ++ reg.contact.render ++ ['>'] := by
    rw [Text.trim_eq_self_iff, Text.endsPlain_append_iff (by decide)]
    exact ⟨fun c hc => Option.some.inj hc ▸ rfl, by decide⟩
  rw [Response.getAll_reread, if_neg (by decide), getAll_contact_confirmation, List.map_singleton,
    htrim]

theorem getAll_expires_reread (fresh : Fresh) (req : Request) (reg : Registration) :
    (confirmation fresh req reg).reread.headers.getAll "expires".toList =
      [Decimal.write reg.seconds] := by
  rw [Response.getAll_reread, if_neg (by decide), getAll_expires_confirmation, List.map_singleton,
    Decimal.trim_write]

theorem tells_of_sent {fresh : Fresh} {reg : Registration} {o : Outcome}
    (hsent : o.sent = [⟨dest, (confirmation fresh req reg).encode, w.networkUp⟩])
    (hreq : req.headers.Unfolded) (hcontact : OneLine reg.contact.render) : o.Tells reg := by
  have hprint : (confirmation fresh req reg).Printable :=
    Request.printable_of_repliedBy hreq (Request.repliedBy_confirmation fresh hcontact)
  exact ⟨_, (confirmation fresh req reg).reread, hsent, Message.parse_encode hprint, rfl,
    getAll_contact_reread fresh req reg, getAll_expires_reread fresh req reg⟩

theorem confirm_of_accepts (h : r.Accepts w req user contact dest) (fresh : Fresh)
    (reg : Registration) (bs : Bindings) :
    confirm w fresh req (.ok reg, bs) =
      ⟨if w.networkUp then .ok () else .error .io,
        [⟨dest, (confirmation fresh req reg).encode, w.networkUp⟩], bs⟩ := by
  obtain ⟨v, hv, hd⟩ := h.via
  have htop : (confirmation fresh req reg).topVia = .ok v :=
    Response.topVia_of_via? (get?_via_confirmation fresh req reg) hv
  have hdest : (confirmation fresh req reg).topVia >>= Via.destination w = .ok dest := by
    rw [htop]
    exact hd
  rw [confirm, Response.deliver, hdest, Outcome.ofDelivery]

theorem confirms_confirm (h : r.Accepts w req user contact dest) (fresh : Fresh)
    (reg : Registration) (bs : Bindings) :
    (confirm w fresh req (.ok reg, bs)).Confirms w dest reg := by
  rw [confirm_of_accepts h]
  exact ⟨rfl, _, rfl, rfl, getAll_contact_confirmation fresh req reg,
    getAll_expires_confirmation fresh req reg⟩

theorem tells_confirm (h : r.Accepts w req user contact dest) (hreq : req.headers.Unfolded)
    (fresh : Fresh) {reg : Registration} (hcontact : OneLine reg.contact.render) (bs : Bindings) :
    (confirm w fresh req (.ok reg, bs)).Tells reg := by
  rw [confirm_of_accepts h]
  exact tells_of_sent rfl hreq hcontact

theorem register_of_accepts (h : r.Accepts w req user contact dest) (fresh : Fresh)
    (port : UInt16) : ∃ domain, r.bindings.serves domain = true ∧ r.register w fresh req port =
      match req.wish? r.defaultExpiry contact with
      | none => ⟨.error (.invalidExpires ((Intent.expiresText? req).getD [])), [], r.bindings⟩
      | some x =>
        if min x maxExpiry = 0 then confirm w fresh req (r.bindings.unregister w.now user)
        else confirm w fresh req (r.bindings.register w.now domain user
          (Intent.fillPort port contact.uri) (min x maxExpiry * second)) := by
  obtain ⟨domain, hd, hserved⟩ := h.domain
  obtain ⟨text, hg, ha⟩ := h.contact
  refine ⟨domain, hserved, ?_⟩
  -- A removal by the header is told from the text, before the Contact is read.
  by_cases hz : req.SaysZero
  · have hwish : req.wish? r.defaultExpiry contact = some 0 := by
      have htext : Intent.expiresText? req = some ['0'] := hz
      have hzero : Decimal.readU64? ['0'] = some 0 := by decide
      rw [Request.wish?_eq, htext]
      exact hzero
    rw [register_of_saysZero h.names hz, hwish]
    rfl
  · rw [register_eq, Intent.ofRequest_of_not_saysZero h.names hz, hg]
    simp only [Intent.ofContact_wish ha hd]
    cases req.wish? r.defaultExpiry contact with
    | none => rfl
    | some x =>
      by_cases hx : min x maxExpiry = 0
      · simp only [if_pos hx]
        rfl
      · simp only [if_neg hx]
        rfl

theorem not_refused_of_confirms {reg : Registration} {o : Outcome} (h : o.Confirms w dest reg)
    (code : UInt16) : o.result ≠ .error (.binding (.refused code)) := by
  rw [h.1]
  cases w.networkUp <;> simp

theorem oneLine_place (h : r.Accepts w req user contact dest) (hreq : req.headers.Unfolded)
    (port : UInt16) : OneLine (Intent.fillPort port contact.uri).render := by
  obtain ⟨text, hg, ha⟩ := h.contact
  have htext : OneLine text := Headers.oneLine_of_get? hreq hg
  exact Uri.oneLine_render_fillPort (Address.oneLine_uri_of_parse htext ha) port

theorem register_of_pos (h : r.Accepts w req user contact dest) {domain : Uri}
    (hd : r.bindings.serves domain = true) {secs : Nat} (hpos : 0 < secs) (hmax : secs ≤ maxExpiry)
    (place : Uri) (fresh : Fresh) {o : Outcome}
    (ho : o = confirm w fresh req (r.bindings.register w.now domain user place (secs * second))) :
    o.Confirms w dest ⟨secs, place⟩ ∧
      (req.headers.Unfolded → OneLine place.render → o.Tells ⟨secs, place⟩) ∧
        (o.bindings.lookup w.now user).1 = .ok ⟨secs, place⟩ := by
  have hwhole : secs * second / second = secs := Nat.mul_div_cancel secs (by decide)
  have hsecond : 0 < second := by decide
  have htime : w.now + secs * second < clockLimit := by
    have hclock := h.clock
    have hless : secs * second < 4294967296 * second :=
      Nat.mul_lt_mul_of_pos_right (Nat.lt_succ_of_le hmax) hsecond
    omega
  have hdeadline : w.now < w.now + secs * second :=
    Nat.lt_add_of_pos_right (Nat.mul_pos hpos hsecond)
  rw [Bindings.register_eq_ok hd h.user htime, hwhole] at ho
  subst ho
  refine ⟨confirms_confirm h fresh _ _,
    fun hreq hplace => tells_confirm h hreq fresh hplace _, ?_⟩
  have hserved : ((r.bindings.prune w.now).insert user.userKey
      ⟨place, w.now + secs * second⟩).serves user = true := h.user
  have hlive := Bindings.live?_insert w.now user.userKey user.userKey
    ⟨place, w.now + secs * second⟩ (r.bindings.prune w.now)
  rw [if_pos rfl, if_pos hdeadline] at hlive
  have hlookup := Bindings.lookup_of_live? hserved hlive
  rwa [Binding.registration, Nat.add_sub_cancel_left, hwhole] at hlookup

theorem register_of_none (h : r.Accepts w req user contact dest) (fresh : Fresh) {o : Outcome}
    (ho : o = confirm w fresh req (r.bindings.unregister w.now user)) :
    o.bindings.find? user.userKey = none ∧
      match r.bindings.live? w.now user.userKey with
      | some b => o.Confirms w dest ⟨0, b.contact⟩ ∧
        (req.headers.Unfolded → OneLine b.contact.render → o.Tells ⟨0, b.contact⟩)
      | none => o.result = .error (.binding (.noSuchUser user.userKey)) ∧ o.sent = [] := by
  rw [Bindings.unregister] at ho
  rw [Bindings.live?]
  cases hf : (r.bindings.prune w.now).find? user.userKey with
  | some b =>
    rw [hf] at ho
    subst ho
    exact ⟨Bindings.find?_erase _ _, confirms_confirm h fresh _ _,
      fun hreq hcontact => tells_confirm h hreq fresh hcontact _⟩
  | none =>
    rw [hf] at ho
    subst ho
    exact ⟨hf, rfl, rfl⟩

/-- A registration that is well-formed, for the domain and deliverable. With a header that tells no
number it fails and changes nothing. Else the time that it asks for, cut down to the longest, is
granted and told, whatever the bindings; with a time of zero the user's binding goes, and is told
if it was live. What is told is read back as such, as long as no value breaks a line. -/
theorem register_wish (h : r.Accepts w req user contact dest) (fresh : Fresh) (port : UInt16) :
    let o := r.register w fresh req port
    o.result ≠ .error (.binding (.refused 400)) ∧
      match req.wish? r.defaultExpiry contact with
      | none => ∃ f : Fault, f.status = some 400 ∧ o = ⟨.error f, [], r.bindings⟩
      | some x =>
        let e := min x 4294967295
        let place : Uri := { contact.uri with hostPort :=
          { contact.uri.hostPort with port := some (contact.uri.hostPort.port.getD port) } }
        (0 < e → o.Confirms w dest ⟨e, place⟩ ∧ (req.headers.Unfolded → o.Tells ⟨e, place⟩) ∧
          (o.bindings.lookup w.now user).1 = .ok ⟨e, place⟩) ∧
        (e = 0 → o.bindings.find? user.userKey = none ∧
          match r.bindings.live? w.now user.userKey with
          | some b => o.Confirms w dest ⟨0, b.contact⟩ ∧
            (req.headers.Unfolded → OneLine b.contact.render → o.Tells ⟨0, b.contact⟩)
          | none => ∃ f : Fault, f.status = some 404 ∧ o.result = .error f ∧ o.sent = []) := by
  obtain ⟨domain, hd, ho⟩ := register_of_accepts h fresh port
  generalize r.register w fresh req port = o at ho
  have hlongest : maxExpiry = 4294967295 := rfl
  cases hwish : req.wish? r.defaultExpiry contact with
  | none =>
    rw [hwish] at ho
    subst ho
    exact ⟨by simp [Fault.invalidExpires], _, rfl, rfl⟩
  | some x =>
    simp only [hwish, hlongest] at ho
    by_cases hx : min x 4294967295 = 0
    · rw [if_pos hx] at ho
      obtain ⟨hgone, htold⟩ := register_of_none h fresh ho
      cases hlive : r.bindings.live? w.now user.userKey with
      | some b =>
        rw [hlive] at htold
        exact ⟨not_refused_of_confirms htold.1 400, fun hpos => absurd hx hpos.ne',
          fun _ => ⟨hgone, htold⟩⟩
      | none =>
        rw [hlive] at htold
        refine ⟨?_, fun hpos => absurd hx hpos.ne', fun _ => ⟨hgone, _, rfl, htold⟩⟩
        rw [htold.1]
        simp
    · rw [if_neg hx] at ho
      obtain ⟨hconfirms, htells, hlookup⟩ := register_of_pos h hd (Nat.pos_of_ne_zero hx)
        (Nat.min_le_right _ _) (Intent.fillPort port contact.uri) fresh ho
      have hback (hreq : req.headers.Unfolded) :
          o.Tells ⟨min x 4294967295, Intent.fillPort port contact.uri⟩ :=
        htells hreq (oneLine_place h hreq port)
      exact ⟨not_refused_of_confirms hconfirms 400, fun _ => ⟨hconfirms, hback, hlookup⟩,
        fun h0 => absurd h0 hx⟩

theorem register_wish_longer :
    let user : Uri := ⟨.sip, some ⟨['a'], none⟩, ⟨['d'], none⟩, [], none⟩
    let req := saying "4294967296".toList (forBound ++ [("contact".toList, "<sip:a@h>".toList)])
    let o := Gate.withBinding.registrar.register ⟨0, true, fun _ => []⟩ .zero req 7
    let reg : Registration := ⟨4294967295, ⟨.sip, some ⟨['a'], none⟩, ⟨['h'], some 7⟩, [], none⟩⟩
    o.Tells reg ∧ (o.bindings.lookup 0 user).1 = .ok reg := by
  intro user req o reg
  have haccepts : Gate.withBinding.registrar.Accepts ⟨0, true, fun _ => []⟩ req user
      ⟨[], ⟨.sip, some ⟨['a'], none⟩, ⟨['h'], none⟩, [], none⟩, []⟩ ⟨.v4 127 0 0 1, 5060⟩ := by
    constructor
    · exact ⟨"<sip:a@d>".toList, ⟨[], user, []⟩, by decide +kernel, by decide +kernel, rfl⟩
    · decide +kernel
    · exact ⟨⟨.sip, none, ⟨['d'], none⟩, [], none⟩, by decide +kernel, by decide +kernel⟩
    · exact ⟨"<sip:a@h>".toList, by decide +kernel, by decide +kernel⟩
    · exact ⟨⟨"UDP".toList, ⟨"127.0.0.1".toList, none⟩, []⟩, by decide +kernel, by decide +kernel⟩
    · decide +kernel
  have hwish : req.wish? Gate.withBinding.registrar.defaultExpiry
      ⟨[], ⟨.sip, some ⟨['a'], none⟩, ⟨['h'], none⟩, [], none⟩, []⟩ = some 4294967296 := by
    decide +kernel
  have hends := (register_wish haccepts .zero 7).2
  rw [hwish] at hends
  obtain ⟨-, htells, hlookup⟩ := hends.1 (by decide)
  have hreq : req.headers.Unfolded := by
    rw [Headers.Unfolded]
    decide +kernel
  exact ⟨htells hreq, hlookup⟩

end Registrar
end SipTestbed
