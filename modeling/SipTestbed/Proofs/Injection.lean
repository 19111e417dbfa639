import SipTestbed.Proofs.Echo

/-! No sender can put a line into a reply, to itself or to another: over whole runs of datagrams
from an empty registrar, whatever is sent is read as an echo of the request that it answers. The
invariant is that the contacts kept are single lines. -/
namespace SipTestbed

open Text (OneLine)

namespace Bindings

/-- Nothing that these bindings tell a sender breaks a line. -/
structure Plain (bs : Bindings) : Prop where
  domain : OneLine bs.domain
  contacts : ∀ e ∈ bs.entries, OneLine e.2.contact.render

structure PlainAfter (p : Except BindingError Registration × Bindings) : Prop where
  contact : ∀ reg, p.1 = .ok reg → OneLine reg.contact.render
  bindings : p.2.Plain

theorem plain_empty {domain : Text} (h : OneLine domain) : (empty domain).Plain :=
  ⟨h, List.forall_mem_nil _⟩

variable {bs : Bindings}

theorem Plain.prune (h : bs.Plain) (now : Nat) : (bs.prune now).Plain :=
  ⟨h.domain, fun e he => h.contacts e (List.mem_filter.1 he).1⟩

theorem Plain.erase (h : bs.Plain) (user : Text) : (bs.erase user).Plain :=
  ⟨h.domain, fun e he => h.contacts e (List.mem_filter.1 he).1⟩

theorem Plain.insert (h : bs.Plain) (user : Text) {b : Binding} (hb : OneLine b.contact.render) :
    (bs.insert user b).Plain :=
  ⟨h.domain, List.forall_mem_cons.2 ⟨hb, (h.erase user).contacts⟩⟩

end Bindings

namespace Intent

def Plain : Intent → Prop
  | .bind _ contact _ => OneLine contact.render
  | _ => True

theorem plain_ofContact {default : Nat} {port : UInt16} {r : Request} {text : Text}
    (ht : OneLine text) {i : Intent} (h : ofContact default port r text = .ok i) : i.Plain := by
  rw [ofContact_eq] at h
  cases ha : Address.parse text with
  | error e => simp [ha] at h
  | ok a =>
    have hcontact : OneLine (fillPort port a.uri).render :=
      Uri.oneLine_render_fillPort (Address.oneLine_uri_of_parse ht ha) port
    simp only [ha] at h
    split at h
    · cases h
    · split at h
      · cases h
        trivial
      · split at h
        · cases h
        · cases h
          exact hcontact

theorem plain_ofRequest {default : Nat} {port : UInt16} {r : Request} (hr : r.headers.Unfolded)
    {user : Uri} {i : Intent} (h : ofRequest default port r = .ok (user, i)) : i.Plain := by
  rw [ofRequest_of_names (names_of_ofRequest h)] at h
  split at h
  · cases h
    trivial
  · cases hg : r.headers.get? "contact".toList with
    | none =>
      rw [hg] at h
      cases h
      trivial
    | some text =>
      rw [hg] at h
      obtain ⟨j, hc, he⟩ := map_eq_ok_iff.1 h
      cases he
      exact plain_ofContact (Headers.oneLine_of_get? hr hg) hc

theorem plain_fulfil {i : Intent} (hi : i.Plain) {bs : Bindings} (h : bs.Plain) (now : Nat)
    (user : Uri) : Bindings.PlainAfter (i.fulfil now user bs) := by
  obtain ⟨domain, contact, secs, rfl, -, hbind⟩ | ⟨hdomain, hentries, hanswer⟩ :=
    fulfil_cases now user bs i
  · rw [hbind]
    refine ⟨?_, (h.prune now).insert _ hi⟩
    intro reg hreg
    cases hreg
    exact hi
  · refine ⟨?_, hdomain ▸ h.domain, fun e he => h.contacts e (hentries he)⟩
    intro reg hreg
    obtain ⟨e, he, hcontact, -⟩ := hanswer reg hreg
    exact hcontact ▸ h.contacts e he

theorem status_of_fulfil {now : Nat} {user : Uri} {bs : Bindings} {i : Intent} {e : BindingError}
    (h : (i.fulfil now user bs).1 = .error e) : e.status ∈ [400, 404, 500, 501] := by
  have hunknown : (404 : UInt16) ∈ [400, 404, 500, 501] := by decide
  have htime : (400 : UInt16) ∈ [400, 404, 500, 501] := by decide
  cases i with
  | remove =>
    simp only [fulfil, Bindings.unregister] at h
    split at h
    · cases h
    · cases h
      exact hunknown
  | query =>
    simp only [fulfil, Bindings.lookup] at h
    split at h
    · cases h
      exact hunknown
    · split at h
      · cases h
      · cases h
        exact hunknown
  | bind domain contact secs =>
    simp only [fulfil, Bindings.register] at h
    split at h
    · cases h
      exact hunknown
    · split at h
      · cases h
        exact htime
      · cases h

end Intent

theorem Registrar.plain_answer {r : Request} (hr : r.headers.Unfolded) {reg : Registrar}
    (h : reg.bindings.Plain) (now : Nat) (fresh : Fresh) (port : UInt16) :
    r.RepliedBy (reg.answer now fresh r port).1 ∧ (reg.answer now fresh r port).2.Plain := by
  rw [answer]
  cases hi : Intent.ofRequest reg.defaultExpiry port r with
  | error f => exact ⟨Request.repliedBy_reply fresh.tag (by decide), h⟩
  | ok ui =>
    obtain ⟨user, intent⟩ := ui
    have hafter := Intent.plain_fulfil (Intent.plain_ofRequest hr hi) h now user
    simp only
    cases hf : intent.fulfil now user reg.bindings with
    | mk result bs =>
      rw [hf] at hafter
      cases result with
      | ok grant =>
        have hcontact : OneLine grant.contact.render := hafter.contact grant rfl
        exact ⟨Request.repliedBy_confirmation fresh hcontact, hafter.bindings⟩
      | error e =>
        have hstatus : e.status ∈ [400, 404, 500, 501] :=
          Intent.status_of_fulfil (congrArg Prod.fst hf)
        exact ⟨Request.repliedBy_reply fresh.tag hstatus, hafter.bindings⟩

namespace Gate

variable {g : Gate}

theorem plain_judge {call : Call} (hr : call.request.headers.Unfolded) (hg : g.bindings.Plain)
    (now : Nat) (fresh : Fresh) :
    (∀ resp, (g.judge now fresh call).reply = some resp → call.request.RepliedBy resp) ∧
      (g.judge now fresh call).bindings.Plain := by
  obtain ⟨hreply, hafter⟩ := Registrar.plain_answer hr hg now fresh call.port
  rw [judge]
  cases g.policy with
  | unrestricted => exact ⟨fun resp h => Option.some.inj h ▸ hreply, hafter⟩
  | ask judge =>
    simp only
    cases judge g.calls call with
    | allow => exact ⟨fun resp h => Option.some.inj h ▸ hreply, hafter⟩
    | deny =>
      have hdenied : call.request.RepliedBy (g.registrar.challenged fresh call.request) :=
        Request.repliedBy_challenged fresh hg.domain
      exact ⟨fun resp h => Option.some.inj h ▸ hdenied, hg⟩
    | crash =>
      have hcrashed : call.request.RepliedBy (call.request.reply fresh.tag 500) :=
        Request.repliedBy_reply fresh.tag (by decide)
      exact ⟨fun resp h => Option.some.inj h ▸ hcrashed, hg⟩

theorem plain_rule {r : Request} (hr : r.headers.Unfolded) (hg : g.bindings.Plain) (now : Nat)
    (fresh : Fresh) (src : Endpoint) :
    (∀ resp, (g.rule now fresh src r).reply = some resp → r.RepliedBy resp) ∧
      (g.rule now fresh src r).bindings.Plain := by
  rw [rule]
  split
  · exact plain_judge hr hg now fresh
  · split
    · exact ⟨by simp, hg⟩
    · have hunsupported : r.RepliedBy (r.reply fresh.tag 501) :=
        Request.repliedBy_reply fresh.tag (by decide)
      exact ⟨fun resp h => Option.some.inj h ▸ hunsupported, hg⟩

theorem unfolded_of_read? {data : Utf8.Octets} {src : Endpoint} {r : Request}
    (h : read? data src = some r) : r.headers.Unfolded := by
  obtain ⟨raw, hparse, hstamp⟩ := read?_eq_some_iff.1 h
  exact Request.unfolded_stamp (Message.unfolded_of_parse hparse) hstamp

theorem plain_handle (hg : g.bindings.Plain) (w : World) (fresh : Fresh) (data : Utf8.Octets)
    (src : Endpoint) : (g.handle w fresh data src).gate.bindings.Plain := by
  rw [handle_eq]
  cases hread : read? data src with
  | none => exact hg
  | some r => exact (plain_rule (unfolded_of_read? hread) hg w.now fresh src).2

theorem handle_echoes (hg : g.bindings.Plain) (w : World) (fresh : Fresh) (data : Utf8.Octets)
    (src : Endpoint) : ∀ a ∈ (g.handle w fresh data src).sent, ∃ raw r resp,
      Message.parse data = .ok (.request raw) ∧ raw.stamp src = .ok r ∧
        Message.parse a.data = .ok (.response resp) ∧ resp.Echoes r := by
  intro a ha
  rw [handle_eq] at ha
  cases hread : read? data src with
  | none => simp [hread, idle] at ha
  | some r =>
    simp only [hread] at ha
    obtain ⟨raw, hraw, hstamp⟩ := read?_eq_some_iff.1 hread
    obtain ⟨resp, hreply, hsent⟩ := Ruling.mem_sent_carryOut ha
    have hr : r.headers.Unfolded := unfolded_of_read? hread
    have hreplied : r.RepliedBy resp := (plain_rule hr hg w.now fresh src).1 resp hreply
    have hdata : a.data = resp.encode := by rw [(mem_sent_deliver hsent).2]
    have hparse := Message.parse_encode (Request.printable_of_repliedBy hr hreplied)
    exact ⟨raw, r, resp.reread, hraw, hstamp, hdata ▸ hparse, Request.echoes_reread hreplied⟩

end Gate

/-- No direct access to the registrar: datagrams, the time, the state of the network. -/
def Action.Outer : Action → Prop
  | .register _ => False
  | .bindings _ => False
  | _ => True

namespace Session

/-- What a datagram preserves of a gate, every action from outside does. -/
theorem gate_act {P : Gate → Prop}
    (hP : ∀ w fresh data src g, P g → P (g.handle w fresh data src).gate) {s : Session}
    (hs : P s.gate) {a : Action} (ha : a.Outer) (fresh : Fresh) : P (s.act fresh a).2.gate := by
  cases a with
  | arrive data src =>
    rw [act]
    split
    · exact hP s.world fresh _ src s.gate hs
    · exact hs
  | handle data src => exact hP s.world fresh data src s.gate hs
  | register call => exact absurd ha id
  | bindings op => exact absurd ha id
  | receiveError => exact hs
  | domain => exact hs
  | advance time => exact hs
  | network up => exact hs

theorem gate_after {P : Gate → Prop}
    (hP : ∀ w fresh data src g, P g → P (g.handle w fresh data src).gate) {s : Session}
    (hs : P s.gate) {as : List (Fresh × Action)} (has : ∀ a ∈ as, a.2.Outer) :
    P (s.after as).gate := by
  induction as generalizing s with
  | nil => exact hs
  | cons a as ih =>
    obtain ⟨ha, hrest⟩ := List.forall_mem_cons.1 has
    exact ih (gate_act hP hs ha a.1) hrest

theorem plain_after {s : Session} (hs : s.bindings.Plain) {as : List (Fresh × Action)}
    (has : ∀ a ∈ as, a.2.Outer) : (s.after as).bindings.Plain :=
  gate_after (P := fun g => g.bindings.Plain)
    (fun w fresh data src _ hg => Gate.plain_handle hg w fresh data src) hs has

/-- After any run of datagrams from an empty registrar, whatever the policy, what one more datagram
has sent is read as a response that echoes its request. -/
theorem sent_echoes (names : Text → List IpAddr) {domain : Text} (hd : OneLine domain)
    (defaultExpiry : Nat) (policy : Policy) {as : List (Fresh × Action)}
    (has : ∀ a ∈ as, a.2.Outer) (w : World) (fresh : Fresh) (data : Utf8.Octets) (src : Endpoint) :
    ∀ a ∈ (((start names (.ofDomain domain defaultExpiry policy)).after as).gate.handle w fresh data
        src).sent, ∃ raw r resp, Message.parse data = .ok (.request raw) ∧ raw.stamp src = .ok r ∧
      Message.parse a.data = .ok (.response resp) ∧ resp.Echoes r := by
  have hstart : (start names (.ofDomain domain defaultExpiry policy)).bindings.Plain :=
    Bindings.plain_empty hd
  exact Gate.handle_echoes (plain_after hstart has) w fresh data src

def forAlice (rest : String) : Utf8.Octets :=
  Utf8.encode ("REGISTER sip:d SIP/2.0\r\nVia: SIP/2.0/UDP 127.0.0.1\r\n".toList ++
    "To: <sip:alice@d>\r\n".toList ++ rest.toList ++ "\r\n".toList)

def bindAlice : List (Fresh × Action) :=
  [(.zero, .handle (forAlice "Contact: <sip:alice@h>\r\n") ⟨.v4 127 0 0 2, 5060⟩),
    (.zero, .advance second)]

def aliceGate : Gate :=
  ((start (fun _ => []) (.ofDomain "d".toList 60 .unrestricted)).after bindAlice).gate

theorem sent_echoes_alice :
    ∃ a ∈ (aliceGate.handle ⟨second, true, fun _ => []⟩ .zero (forAlice "")
        ⟨.v4 127 0 0 1, 5060⟩).sent,
      a.status? = some 200 ∧ ∃ raw r resp, Message.parse (forAlice "") = .ok (.request raw) ∧
        raw.stamp ⟨.v4 127 0 0 1, 5060⟩ = .ok r ∧ Message.parse a.data = .ok (.response resp) ∧
        resp.Echoes r := by
  have hsent : (aliceGate.handle ⟨second, true, fun _ => []⟩ .zero (forAlice "")
      ⟨.v4 127 0 0 1, 5060⟩).sent.any (fun a => a.status? == some 200) = true := by decide +kernel
  obtain ⟨a, ha, hstatus⟩ := List.any_eq_true.1 hsent
  have houter : ∀ a ∈ bindAlice, a.2.Outer := by simp [bindAlice, Action.Outer]
  have hecho := sent_echoes (fun _ => []) (by decide) 60 .unrestricted houter
    ⟨second, true, fun _ => []⟩ .zero (forAlice "") ⟨.v4 127 0 0 1, 5060⟩ a ha
  exact ⟨a, ha, by simpa using hstatus, hecho⟩

end Session
end SipTestbed
