import SipTestbed.Proofs.Ruling

/-! Replies go back to where their requests came from, with one exception: the record of the source
passes over a Via with the right host, and what that Via says it was received from is believed. -/
namespace SipTestbed

theorem addressesOf_render (names : Text → List IpAddr) (ip : IpAddr) :
    addressesOf names ip.render = [ip] := by
  simp [addressesOf, IpAddr.parse?_render]

namespace Via

/-- The sender names the right host, asks for no port, and claims that the Via was received from a
host with another address. -/
def Misleads (names : Text → List IpAddr) (src : Endpoint) (v : Via) : Prop :=
  v.sentBy.host = src.ip.render ∧ ¬ v.AsksPort ∧
    ∃ host ip ips, v.received = some host ∧ addressesOf names host = ip :: ips ∧ ip ≠ src.ip

theorem destination_of_received {w : World} {v : Via} {ip : IpAddr}
    (h : v.received = some ip.render) : v.destination w = .ok ⟨ip, v.replyPort⟩ := by
  rw [destination, replyHost, h, Option.getD_some, addressesOf_render]

theorem destination_of_replyHost {w : World} {v : Via} {dest : Endpoint}
    (h : v.destination w = .ok dest) : ∃ ips, addressesOf w.names v.replyHost = dest.ip :: ips := by
  rw [destination] at h
  cases ha : addressesOf w.names v.replyHost with
  | nil => simp [ha] at h
  | cons ip ips =>
    simp only [ha, Except.ok.injEq] at h
    exact ⟨ips, by rw [← h]⟩

theorem destination_ne_iff {w : World} {src : Endpoint} {v : Via} (hs : v.stamp? src = none) :
    (∃ dest, v.destination w = .ok dest ∧ dest.ip ≠ src.ip) ↔ v.Misleads w.names src := by
  obtain ⟨hhost, hrport⟩ := stamp?_eq_none_iff.1 hs
  constructor
  · intro h
    obtain ⟨dest, hd, hne⟩ := h
    obtain ⟨ips, hips⟩ := destination_of_replyHost hd
    refine ⟨hhost, hrport, ?_⟩
    cases hr : v.received with
    | none =>
      rw [replyHost, hr, Option.getD_none, hhost, addressesOf_render, List.cons.injEq] at hips
      exact absurd hips.1.symm hne
    | some host =>
      rw [replyHost, hr, Option.getD_some] at hips
      exact ⟨host, dest.ip, ips, rfl, hips, hne⟩
  · intro h
    obtain ⟨-, -, host, ip, ips, hr, ha, hne⟩ := h
    refine ⟨⟨ip, v.replyPort⟩, ?_, hne⟩
    rw [destination, replyHost, hr, Option.getD_some, ha]

end Via

theorem Response.topVia_of_via? {resp : Response} {r : Request} {v : Via}
    (hvia : resp.headers.get? "via".toList = r.headers.get? "via".toList) (hv : r.via? = some v) :
    resp.topVia = .ok v := by
  obtain ⟨text, hg, hp⟩ := Request.via?_eq_some_iff.1 hv
  rw [topVia, hvia, hg]
  simp only [hp]
  rfl

theorem Response.via?_of_topVia {resp : Response} {r : Request} {v : Via}
    (hvia : resp.headers.get? "via".toList = r.headers.get? "via".toList)
    (hv : resp.topVia = .ok v) : r.via? = some v := by
  rw [topVia, hvia] at hv
  cases hg : r.headers.get? "via".toList with
  | none => simp only [hg, reduceCtorEq] at hv
  | some text =>
    simp only [hg] at hv
    cases hp : Via.parse text with
    | error e =>
      rw [hp] at hv
      cases hv
    | ok u =>
      rw [hp] at hv
      cases hv
      exact Request.via?_eq_some_iff.2 ⟨text, hg, hp⟩

namespace Gate

theorem mem_sent_handle {w : World} {fresh : Fresh} {data : Utf8.Octets} {src : Endpoint} {g : Gate}
    {a : Attempt} (ha : a ∈ (g.handle w fresh data src).sent) :
    ∃ r v, read? data src = some r ∧ r.method ≠ "ACK".toList ∧ r.via? = some v ∧
      v.destination w = .ok a.dest := by
  rw [handle_eq] at ha
  cases hread : read? data src with
  | none => simp [hread, idle] at ha
  | some r =>
    simp only [hread] at ha
    obtain ⟨resp, hr, hsent⟩ := Ruling.mem_sent_carryOut ha
    have hdest := (mem_sent_deliver hsent).1
    cases htop : resp.topVia with
    | error f => simp [htop, Bind.bind, Except.bind] at hdest
    | ok v =>
      rw [htop] at hdest
      have hm : r.method ≠ "ACK".toList := by
        intro hm
        rw [rule, hm] at hr
        cases hr
      exact ⟨r, v, rfl, hm, Response.via?_of_topVia (get?_via_rule hr) htop, hdest⟩

theorem sent_handle_of_destination {w : World} {data : Utf8.Octets} {src : Endpoint} {r : Request}
    {v : Via} {dest : Endpoint} (hread : read? data src = some r) (hm : r.method ≠ "ACK".toList)
    (hv : r.via? = some v) (hd : v.destination w = .ok dest) (fresh : Fresh) (g : Gate) :
    ∃ resp : Response, (g.handle w fresh data src).sent = [⟨dest, resp.encode, w.networkUp⟩] := by
  obtain ⟨resp, hr⟩ : ∃ resp, (g.rule w.now fresh src r).reply = some resp := reply_rule hm
  refine ⟨resp, ?_⟩
  have htop : resp.topVia = .ok v := Response.topVia_of_via? (get?_via_rule hr) hv
  have hdest : resp.topVia >>= Via.destination w = .ok dest := by
    rw [htop]
    exact hd
  simp [handle_eq, hread, Ruling.carryOut, hr, Response.deliver, hdest]

theorem exists_sent_of_misleads {w : World} {data : Utf8.Octets} {src : Endpoint} {raw : Request}
    {v : Via} (hparse : Message.parse data = .ok (.request raw)) (hm : raw.method ≠ "ACK".toList)
    (hv : raw.via? = some v) (hmis : v.Misleads w.names src) (fresh : Fresh) (g : Gate) :
    ∃ a ∈ (g.handle w fresh data src).sent, a.dest.ip ≠ src.ip := by
  have hs : v.stamp? src = none := Via.stamp?_eq_none_iff.2 ⟨hmis.1, hmis.2.1⟩
  have hstamp : raw.stamp src = .ok raw := by rw [Request.stamp_of_via? hv, hs]
  have hread : read? data src = some raw := read?_eq_some_iff.2 ⟨raw, hparse, hstamp⟩
  obtain ⟨dest, hd, hne⟩ := (Via.destination_ne_iff hs).2 hmis
  obtain ⟨resp, hsent⟩ := sent_handle_of_destination hread hm hv hd fresh g
  exact ⟨⟨dest, resp.encode, w.networkUp⟩, by simp [hsent], hne⟩

/-- Whatever is sent for a datagram goes to the address that it came from, unless it is a request
other than an ACK and its top Via misleads. -/
theorem sent_to_source_iff (w : World) (fresh : Fresh) (data : Utf8.Octets) (src : Endpoint)
    (g : Gate) :
    (∀ a ∈ (g.handle w fresh data src).sent, a.dest.ip = src.ip) ↔
      ∀ raw v, Message.parse data = .ok (.request raw) → raw.method ≠ "ACK".toList →
        raw.via? = some v → ¬ v.Misleads w.names src := by
  constructor
  · intro h raw v hparse hm hv hmis
    obtain ⟨a, ha, hne⟩ := exists_sent_of_misleads hparse hm hv hmis fresh g
    exact hne (h a ha)
  · intro h a ha
    obtain ⟨r, v', hread, hm, hv', hd⟩ := mem_sent_handle ha
    obtain ⟨raw, hparse, hstamp⟩ := read?_eq_some_iff.1 hread
    obtain ⟨v, hv⟩ := Request.via?_of_stamp hstamp
    rw [(Request.stamp_frame hstamp).1] at hm
    cases Request.via?_stamp hstamp hv hv' with
    | inl hsame =>
      obtain ⟨hs, rfl⟩ := hsame
      apply Decidable.byContradiction
      intro hne
      exact h raw _ hparse hm hv ((Via.destination_ne_iff hs).1 ⟨a.dest, hd, hne⟩)
    | inr hreceived =>
      rw [Via.destination_of_received hreceived, Except.ok.injEq] at hd
      rw [← hd]

/-- A sender at 192.0.2.7 has the reply sent to 203.0.113.9. -/
theorem sent_elsewhere :
    (((ofDomain "d".toList 60 .unrestricted).handle ⟨0, true, fun _ => []⟩ .zero
      (Utf8.encode ("REGISTER sip:d SIP/2.0\r\n".toList ++
        "Via: SIP/2.0/UDP 192.0.2.7;received=203.0.113.9\r\n\r\n".toList))
      ⟨.v4 192 0 2 7, 5060⟩).sent.map fun a => a.dest) = [⟨.v4 203 0 113 9, 5060⟩] := by
  decide +kernel

end Gate
end SipTestbed
