import SipTestbed.Proofs.Reflection

/-! Replies to a sender behind an address translation. The address that it gives is no good there,
so its replies go to the source of the request, whatever parameters the top Via came with. The port
is the source's too, save for a sender who gives that port as its own and asks for another. -/
namespace SipTestbed

namespace Via

theorem rport_setReceived (host : Text) (v : Via) : (v.setReceived host).rport = v.rport := by
  have h : ¬ Text.sameWord "received".toList "rport".toList = true := by decide
  rw [rport, setReceived, Params.get?_set, if_neg h, rport]

theorem rport_setRport (port : UInt16) (v : Via) : (v.setRport port).rport = .known port := by
  have h : Text.sameWord "rport".toList "rport".toList = true := by decide
  rw [rport, setRport, Params.get?_set, if_pos h]
  simp only [Decimal.readU16?_write]

/-- The port of the source, or the one that a sender with that very port asks for. -/
def symmetricPort (src : Endpoint) (v : Via) : UInt16 :=
  if v.sentBy.port = some src.port then v.toldPort?.getD src.port else src.port

theorem symmetricPort_of_asksPort {src : Endpoint} {v : Via} (h : v.AsksPort) :
    v.symmetricPort src = src.port := by
  obtain ⟨-, -, htold⟩ := h
  rw [symmetricPort, htold, Option.getD_none, ite_self]

theorem replyPort_of_stamp? {src : Endpoint} {v v' : Via} (h : v.stamp? src = some v') :
    v'.replyPort = v.symmetricPort src := by
  obtain ⟨rfl, hport⟩ | ⟨rfl, hport⟩ := stamp?_cases h
  · have hsentBy : (v.setReceived src.ip.render).sentBy.port = some src.port := hport
    rw [replyPort, rport_setReceived, port?_rport, hsentBy, symmetricPort, if_pos hport]
    cases v.toldPort? <;> rfl
  · have hreply : ((v.setReceived src.ip.render).setRport src.port).replyPort = src.port := by
      rw [replyPort, rport_setRport]
      rfl
    rw [hreply]
    cases hport with
    | inl hport => rw [symmetricPort, if_neg hport]
    | inr hasked => rw [symmetricPort_of_asksPort hasked]

theorem rereadParam_of_stamp? {src : Endpoint} {v v' : Via} (h : v.stamp? src = some v')
    (hv : ∀ p ∈ v.params, Params.rereadParam p = p) :
    ∀ p ∈ v'.params, Params.rereadParam p = p := by
  have hreceived : ∀ p ∈ (v.setReceived src.ip.render).params, Params.rereadParam p = p :=
    Params.rereadParam_set (reread_render src.ip) hv
  obtain ⟨rfl, -⟩ | ⟨rfl, -⟩ := stamp?_cases h
  · exact hreceived
  · exact Params.rereadParam_set (reread_write src.port.toNat) hreceived

theorem parse_render_stamp_self {src : Endpoint} {text place : Text} {v v' : Via}
    (hp : parse text = .ok v) (hquote : '"' ∉ text) (hplace : place? text = some place)
    (hbrackets : HostPort.WellBracketed place) (h : v.stamp? src = some v') :
    parse v'.render = .ok v' := by
  obtain ⟨hprint, -, -⟩ := received_of_stamp? (printable_of_parse hp) h
  obtain ⟨-, hsentBy⟩ := sender_of_stamp? h
  have hstable := stable_of_parse hp hplace hbrackets
  have hparams := rereadParam_of_stamp? h (mem_params_of_parse hp hquote)
  exact parse_render_self hprint (hsentBy ▸ host_ne_nil_of_parse hp) (hsentBy ▸ hstable) hparams

end Via

namespace Gate

theorem sent_of_stamp? {w : World} {data : Utf8.Octets} {src : Endpoint} {raw : Request}
    {text place : Text} {v v' : Via} (hparse : Message.parse data = .ok (.request raw))
    (hm : raw.method ≠ "ACK".toList) (hg : raw.headers.get? "via".toList = some text)
    (hp : Via.parse text = .ok v) (hquote : '"' ∉ text) (hplace : Via.place? text = some place)
    (hbrackets : HostPort.WellBracketed place) (h : v.stamp? src = some v') (fresh : Fresh)
    (g : Gate) :
    (g.handle w fresh data src).sent.map Attempt.dest = [⟨src.ip, v.symmetricPort src⟩] := by
  obtain ⟨r, hr⟩ : ∃ r : Request,
      r = { raw with headers := raw.headers.replaceFirst "via".toList v'.render } := ⟨_, rfl⟩
  have hstamp : raw.stamp src = .ok r := by
    rw [Request.stamp_of_via? (Request.via?_eq_some_iff.2 ⟨text, hg, hp⟩), h, hr]
  have hread : read? data src = some r := read?_eq_some_iff.2 ⟨raw, hparse, hstamp⟩
  have hv' : r.via? = some v' := by
    refine Request.via?_eq_some_iff.2 ⟨v'.render, ?_, ?_⟩
    · rw [hr, Headers.get?_replaceFirst]
    · exact Via.parse_render_stamp_self hp hquote hplace hbrackets h
  have hd : v'.destination w = .ok ⟨src.ip, v.symmetricPort src⟩ := by
    obtain ⟨-, -, hreceived⟩ := Via.received_of_stamp? (Via.printable_of_parse hp) h
    rw [Via.destination_of_received hreceived, Via.replyPort_of_stamp? h]
  have hmethod : r.method ≠ "ACK".toList := by rwa [hr]
  obtain ⟨resp, hsent⟩ := sent_handle_of_destination hread hmethod hv' hd fresh g
  rw [hsent, List.map_singleton]

/-- A sender that does not give the address of the source, or that asks for its port, is answered at
the source. -/
theorem sent_symmetric {data : Utf8.Octets} {raw : Request} {text place : Text} {v : Via}
    (hparse : Message.parse data = .ok (.request raw)) (hm : raw.method ≠ "ACK".toList)
    (hg : raw.headers.get? "via".toList = some text) (hp : Via.parse text = .ok v)
    (hquote : '"' ∉ text) (hplace : Via.place? text = some place)
    (hbrackets : HostPort.WellBracketed place) (w : World) (fresh : Fresh) (src : Endpoint)
    (g : Gate) :
    let dests := (g.handle w fresh data src).sent.map Attempt.dest
    (v.sentBy.host ≠ src.ip.render → dests = [⟨src.ip, v.symmetricPort src⟩]) ∧
      (v.sentBy.host = src.ip.render → v.AsksPort → dests = [src]) := by
  have hsome (h : v.stamp? src ≠ none) : (g.handle w fresh data src).sent.map Attempt.dest =
      [⟨src.ip, v.symmetricPort src⟩] := by
    obtain ⟨v', hv'⟩ := Option.ne_none_iff_exists'.1 h
    exact sent_of_stamp? hparse hm hg hp hquote hplace hbrackets hv' fresh g
  constructor
  · intro hhost
    exact hsome fun h => hhost (Via.stamp?_eq_none_iff.1 h).1
  · intro hhost hasked
    rw [hsome fun h => (Via.stamp?_eq_none_iff.1 h).2 hasked, Via.symmetricPort_of_asksPort hasked]

def insideVia : Text := "SIP/2.0/UDP [fd00::1]:5060;received=203.0.113.9;rport=9".toList

def fromInside : Utf8.Octets :=
  Utf8.encode ("OPTIONS sip:d SIP/2.0\r\nVia: ".toList ++ insideVia ++ "\r\n\r\n".toList)

theorem sent_symmetric_fromInside :
    ((ofDomain "d".toList 60 .unrestricted).handle ⟨0, true, fun _ => []⟩ .zero fromInside
      ⟨.v4 192 0 2 7, 5060⟩).sent.map Attempt.dest = [⟨.v4 192 0 2 7, 9⟩] := by
  have hparse : Message.parse fromInside = .ok (.request
      ⟨"OPTIONS".toList, "sip:d".toList, ⟨[("via".toList, insideVia)]⟩, []⟩) := by decide +kernel
  have hp : Via.parse insideVia = .ok ⟨"UDP".toList, ⟨"fd00::1".toList, some 5060⟩,
      [("received".toList, some "203.0.113.9".toList), ("rport".toList, some ['9'])]⟩ := by
    decide +kernel
  have hplace : Via.place? insideVia = some "[fd00::1]:5060".toList := by decide +kernel
  have hbrackets : HostPort.WellBracketed "[fd00::1]:5060".toList :=
    Or.inr ⟨"fd00::1".toList, ":5060".toList, rfl, by decide, by decide⟩
  exact (sent_symmetric hparse (by decide) rfl hp (by decide +kernel) hplace hbrackets
    ⟨0, true, fun _ => []⟩ .zero ⟨.v4 192 0 2 7, 5060⟩
    (ofDomain "d".toList 60 .unrestricted)).1 (by decide +kernel)

end Gate
end SipTestbed
