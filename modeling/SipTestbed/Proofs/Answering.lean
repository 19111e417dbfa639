import SipTestbed.Proofs.Reflection

/-! A datagram is answered once or not at all, and its text, its source and the name table settle
which. Neither the policy nor the network has a say: a reply that fails is not sent again. -/
namespace SipTestbed

/-- A host with an address: a literal, or a name that can be asked for and stands for one. -/
def Locatable (names : Text → List IpAddr) (host : Text) : Prop :=
  (∃ ip, IpAddr.parse? host = some ip) ∨ ('\x00' ∉ host ∧ names host ≠ [])

theorem addressesOf_ne_nil_iff {names : Text → List IpAddr} {host : Text} :
    addressesOf names host ≠ [] ↔ Locatable names host := by
  rw [addressesOf, Locatable]
  cases IpAddr.parse? host with
  | some ip => simp
  | none =>
    by_cases hnul : '\x00' ∈ host
    · simp [hnul]
    · simp [hnul]

theorem Via.exists_destination_iff {w : World} {v : Via} :
    (∃ dest, v.destination w = .ok dest) ↔
      Locatable w.names (v.received.getD v.sentBy.host) := by
  rw [← addressesOf_ne_nil_iff, Via.destination, Via.replyHost]
  cases addressesOf w.names (v.received.getD v.sentBy.host) with
  | nil => simp
  | cons ip ips => simp

theorem Response.length_sent_deliver (w : World) (r : Response) :
    (r.deliver w).sent.length ≤ 1 := by
  rw [deliver]
  cases r.topVia >>= Via.destination w with
  | error f => simp
  | ok dest => simp

theorem Response.sent_deliver_network (w : World) (up : Bool) (r : Response) :
    (r.deliver { w with networkUp := up }).sent =
      (r.deliver w).sent.map fun a => { a with ok := up } := by
  rw [deliver, deliver]
  have hdest : (r.topVia >>= Via.destination { w with networkUp := up }) =
      (r.topVia >>= Via.destination w) := rfl
  rw [hdest]
  cases r.topVia >>= Via.destination w with
  | error f => rfl
  | ok dest => rfl

theorem Ruling.sent_carryOut_network (w : World) (up : Bool) (g : Gate) (d : Ruling) :
    (d.carryOut { w with networkUp := up } g).sent =
      (d.carryOut w g).sent.map fun a => { a with ok := up } := by
  obtain ⟨reply, asked, bindings⟩ := d
  cases reply with
  | none => rfl
  | some resp => exact resp.sent_deliver_network w up

namespace Gate

/-- A request that is answered: no ACK, with a top Via that is a good one as it came and with its
source recorded, and that then leads to a host with an address. -/
def Answerable (names : Text → List IpAddr) (data : Utf8.Octets) (src : Endpoint) : Prop :=
  ∃ raw v r v', Message.parse data = .ok (.request raw) ∧ raw.method ≠ "ACK".toList ∧
    raw.via? = some v ∧ raw.stamp src = .ok r ∧ r.via? = some v' ∧
      Locatable names (v'.received.getD v'.sentBy.host)

theorem length_sent_handle (w : World) (fresh : Fresh) (data : Utf8.Octets) (src : Endpoint)
    (g : Gate) : (g.handle w fresh data src).sent.length ≤ 1 := by
  rw [handle_eq]
  cases read? data src with
  | none => simp [idle]
  | some r =>
    simp only [Ruling.carryOut]
    cases (g.rule w.now fresh src r).reply with
    | none => simp
    | some resp => exact resp.length_sent_deliver w

theorem answerable_of_mem_sent {w : World} {fresh : Fresh} {data : Utf8.Octets} {src : Endpoint}
    {g : Gate} {a : Attempt} (ha : a ∈ (g.handle w fresh data src).sent) :
    Answerable w.names data src := by
  obtain ⟨r, v', hread, hm, hv', hd⟩ := mem_sent_handle ha
  obtain ⟨raw, hparse, hstamp⟩ := read?_eq_some_iff.1 hread
  obtain ⟨v, hv⟩ := Request.via?_of_stamp hstamp
  have hraw : raw.method ≠ "ACK".toList := by rwa [← (Request.stamp_frame hstamp).1]
  exact ⟨raw, v, r, v', hparse, hraw, hv, hstamp, hv', Via.exists_destination_iff.1 ⟨a.dest, hd⟩⟩

theorem length_sent_of_answerable {w : World} {data : Utf8.Octets} {src : Endpoint}
    (h : Answerable w.names data src) (fresh : Fresh) (g : Gate) :
    (g.handle w fresh data src).sent.length = 1 := by
  obtain ⟨raw, v, r, v', hparse, hm, -, hstamp, hv', hhost⟩ := h
  have hread : read? data src = some r := read?_eq_some_iff.2 ⟨raw, hparse, hstamp⟩
  have hr : r.method ≠ "ACK".toList := by rwa [(Request.stamp_frame hstamp).1]
  obtain ⟨dest, hd⟩ := Via.exists_destination_iff.2 hhost
  obtain ⟨resp, hsent⟩ := sent_handle_of_destination hread hr hv' hd fresh g
  rw [hsent, List.length_singleton]

theorem sent_handle_network (w : World) (up : Bool) (fresh : Fresh) (data : Utf8.Octets)
    (src : Endpoint) (g : Gate) :
    (g.handle { w with networkUp := up } fresh data src).sent =
      (g.handle w fresh data src).sent.map fun a => { a with ok := up } := by
  rw [handle_eq, handle_eq]
  cases read? data src with
  | none => rfl
  | some r =>
    exact (g.rule w.now fresh src r).sent_carryOut_network w up g

/-- A datagram is answered once if it is answerable and not at all if it is not. A send that fails
is the same single attempt as one that succeeds. -/
theorem answered_once_iff (w : World) (fresh : Fresh) (data : Utf8.Octets) (src : Endpoint)
    (g : Gate) :
    (g.handle w fresh data src).sent.length ≤ 1 ∧
      ((g.handle w fresh data src).sent.length = 1 ↔ Answerable w.names data src) ∧
      ((g.handle w fresh data src).sent = [] ↔ ¬ Answerable w.names data src) ∧
      ∀ up, (g.handle { w with networkUp := up } fresh data src).sent =
        (g.handle w fresh data src).sent.map fun a => { a with ok := up } := by
  have hone : (g.handle w fresh data src).sent.length = 1 ↔ Answerable w.names data src := by
    constructor
    · intro hlen
      obtain ⟨a, ha⟩ := List.length_eq_one_iff.1 hlen
      have hmem : a ∈ (g.handle w fresh data src).sent := by simp [ha]
      exact answerable_of_mem_sent hmem
    · intro h
      exact length_sent_of_answerable h fresh g
  have hle := length_sent_handle w fresh data src g
  refine ⟨hle, hone, ?_, fun up => sent_handle_network w up fresh data src g⟩
  rw [← hone, ← List.length_eq_zero_iff]
  omega

end Gate
end SipTestbed
