import SipTestbed.Gate.Source
import SipTestbed.Headers.Lemmas
import SipTestbed.Proofs.ViaText
import SipTestbed.Registrar.Reply

/-! What the record of a source changes in a request, and where the replies to the request go. -/
namespace SipTestbed

def Request.via? (r : Request) : Option Via :=
  (r.headers.get? "via".toList).bind fun text => (Via.parse text).toOption

namespace Via

theorem received_setReceived (host : Text) (v : Via) :
    (v.setReceived host).received = some host := by
  simp [received, setReceived, Params.value?_set, Text.sameWord]

theorem received_setRport (port : UInt16) (v : Via) : (v.setRport port).received = v.received := by
  have h : ¬ Text.sameWord "rport".toList "received".toList = true := by decide
  rw [received, setRport, Params.value?_set, if_neg h, received]

/-- The value of the first `rport` among the parameters. -/
def firstRport? (v : Via) : Option (Option Text) :=
  (v.params.find? fun p => Text.sameWord p.1 "rport".toList).map Prod.snd

/-- The port that the first `rport` tells. -/
def toldPort? (v : Via) : Option UInt16 :=
  v.firstRport?.bind fun value => value.bind Decimal.readU16?

/-- The first `rport` tells no port. -/
def AsksPort (v : Via) : Prop := ∃ value, v.firstRport? = some value ∧ v.toldPort? = none

theorem rport_eq (v : Via) :
    v.rport =
      match v.firstRport? with
      | none => .absent
      | some _ => v.toldPort?.elim .asked .known := by
  have hget : v.params.get? "rport".toList = v.firstRport? := rfl
  rw [rport, hget, toldPort?]
  rcases v.firstRport? with _ | _ | t
  · rfl
  · rfl
  · cases ht : Decimal.readU16? t <;> simp [ht]

theorem port?_rport (v : Via) : v.rport.port? = v.toldPort? := by
  rw [rport_eq, toldPort?]
  cases v.firstRport? with
  | none => rfl
  | some value =>
    rw [Option.bind_some]
    cases value.bind Decimal.readU16? <;> rfl

theorem rport_eq_asked_iff {v : Via} : v.rport = .asked ↔ v.AsksPort := by
  rw [rport_eq, AsksPort]
  cases v.firstRport? with
  | none => simp
  | some value => cases v.toldPort? <;> simp

theorem stamp?_eq_none_iff {src : Endpoint} {v : Via} :
    v.stamp? src = none ↔ v.sentBy.host = src.ip.render ∧ ¬ v.AsksPort := by
  rw [stamp?, ← rport_eq_asked_iff]
  by_cases hh : v.sentBy.host = src.ip.render
  · by_cases hr : v.rport = .asked <;> simp [hh, hr]
  · by_cases hp : v.sentBy.port = some src.port <;> simp [hh, hp]

/-- What a record adds: the source's host, and its port unless the sender is known to have it. -/
theorem stamp?_cases {src : Endpoint} {v v' : Via} (h : v.stamp? src = some v') :
    (v' = v.setReceived src.ip.render ∧ v.sentBy.port = some src.port) ∨
      (v' = (v.setReceived src.ip.render).setRport src.port ∧
        (v.sentBy.port ≠ some src.port ∨ v.AsksPort)) := by
  rw [stamp?] at h
  split at h
  · split at h
    · rename_i hport
      exact Or.inl ⟨(Option.some.inj h).symm, hport⟩
    · rename_i hport
      exact Or.inr ⟨(Option.some.inj h).symm, Or.inl hport⟩
  · split at h
    · rename_i hasked
      exact Or.inr ⟨(Option.some.inj h).symm, Or.inr (rport_eq_asked_iff.1 hasked)⟩
    · cases h

theorem received_of_stamp? {src : Endpoint} {v v' : Via} (hv : Printable v)
    (h : v.stamp? src = some v') :
    Printable v' ∧ v'.params ≠ [] ∧ v'.received = some src.ip.render := by
  have hrec : Printable (v.setReceived src.ip.render) := printable_setReceived hv src.ip
  obtain ⟨rfl, -⟩ | ⟨rfl, -⟩ := stamp?_cases h
  · exact ⟨hrec, Params.set_ne_nil _ _ _, received_setReceived _ v⟩
  · refine ⟨printable_setRport hrec src.port, Params.set_ne_nil _ _ _, ?_⟩
    rw [received_setRport, received_setReceived]

theorem sender_of_stamp? {src : Endpoint} {v v' : Via} (h : v.stamp? src = some v') :
    v'.transport = v.transport ∧ v'.sentBy = v.sentBy := by
  obtain ⟨rfl, -⟩ | ⟨rfl, -⟩ := stamp?_cases h
  · exact ⟨rfl, rfl⟩
  · exact ⟨rfl, rfl⟩

theorem parse_render_stamp {src : Endpoint} {v v' : Via} (hv : Printable v)
    (h : v.stamp? src = some v') : parse v'.render = (HostPort.parse v.sentBy.render).map fun a =>
      ⟨v.transport, a, v'.params.map Params.rereadParam⟩ := by
  obtain ⟨hprint, hne, -⟩ := received_of_stamp? hv h
  obtain ⟨htransport, hsentBy⟩ := sender_of_stamp? h
  rw [parse_render hprint hne, htransport, hsentBy]

theorem received_of_parse_stamp {src : Endpoint} {v v' v'' : Via} (hv : Printable v)
    (h : v.stamp? src = some v') (hp : parse v'.render = .ok v'') :
    v''.received = some src.ip.render := by
  obtain ⟨-, -, hreceived⟩ := received_of_stamp? hv h
  rw [parse_render_stamp hv h] at hp
  cases ha : HostPort.parse v.sentBy.render with
  | error e => simp [ha, Except.map] at hp
  | ok a =>
    simp only [ha, Except.map, Except.ok.injEq] at hp
    -- Reading back trims a value, which leaves the text of an address as it is.
    have hvalue : v''.received = v'.received.map Params.reread := by
      rw [← hp, received, received, Params.value?_reread]
    rw [hvalue, hreceived, Option.map_some, reread_render]

end Via

namespace Request

theorem via?_eq_some_iff {r : Request} {v : Via} : r.via? = some v ↔
    ∃ text, r.headers.get? "via".toList = some text ∧ Via.parse text = .ok v := by
  have hparse (text : Text) : (Via.parse text).toOption = some v ↔ Via.parse text = .ok v := by
    cases Via.parse text <;> simp [Except.toOption]
  simp only [via?, Option.bind_eq_some_iff, hparse]

theorem stamp_of_via? {src : Endpoint} {r : Request} {v : Via} (h : r.via? = some v) :
    r.stamp src = .ok (match v.stamp? src with
      | none => r
      | some v => { r with headers := r.headers.replaceFirst "via".toList v.render }) := by
  obtain ⟨text, hg, hp⟩ := via?_eq_some_iff.1 h
  rw [stamp, hg]
  simp only [hp]
  cases v.stamp? src <;> rfl

theorem via?_of_stamp {src : Endpoint} {r r' : Request} (h : r.stamp src = .ok r') :
    ∃ v, r.via? = some v := by
  rw [stamp] at h
  cases hg : r.headers.get? "via".toList with
  | none =>
    rw [hg] at h
    cases h
  | some text =>
    rw [hg] at h
    cases hp : Via.parse text with
    | error e => simp [hp] at h
    | ok v => exact ⟨v, via?_eq_some_iff.2 ⟨text, hg, hp⟩⟩

theorem stamp_eq_ok_iff {src : Endpoint} {r : Request} :
    (∃ r', r.stamp src = .ok r') ↔ ∃ v, r.via? = some v := by
  constructor
  · intro h
    obtain ⟨r', h⟩ := h
    exact via?_of_stamp h
  · intro h
    obtain ⟨v, h⟩ := h
    exact ⟨_, stamp_of_via? h⟩

theorem stamp_frame {src : Endpoint} {r r' : Request} (h : r.stamp src = .ok r') :
    r'.method = r.method ∧ r'.uri = r.uri ∧ r'.body = r.body ∧
      ∀ n, Headers.normalise n ≠ "via".toList → r'.headers.getAll n = r.headers.getAll n := by
  obtain ⟨v, hv⟩ := via?_of_stamp h
  rw [stamp_of_via? hv] at h
  cases hs : v.stamp? src with
  | none =>
    simp only [hs, Except.ok.injEq] at h
    subst h
    exact ⟨rfl, rfl, rfl, fun _ _ => rfl⟩
  | some v' =>
    simp only [hs, Except.ok.injEq] at h
    subst h
    refine ⟨rfl, rfl, rfl, ?_⟩
    intro n hn
    have hvia : Headers.normalise "via".toList = "via".toList := by decide
    rw [Headers.getAll_replaceFirst, hvia, if_neg (Ne.symm hn)]

theorem get?_stamp {src : Endpoint} {r r' : Request} (h : r.stamp src = .ok r') {n : Text}
    (hn : Headers.normalise n ≠ "via".toList) : r'.headers.get? n = r.headers.get? n := by
  rw [Headers.get?_eq_head?, Headers.get?_eq_head?, (stamp_frame h).2.2.2 n hn]

/-- The top Via after a record: the sender's own, or one that was received from the source. -/
theorem via?_stamp {src : Endpoint} {r r' : Request} {v v' : Via} (h : r.stamp src = .ok r')
    (hv : r.via? = some v) (hv' : r'.via? = some v') :
    (v.stamp? src = none ∧ v' = v) ∨ v'.received = some src.ip.render := by
  rw [stamp_of_via? hv] at h
  cases hs : v.stamp? src with
  | none =>
    simp only [hs, Except.ok.injEq] at h
    rw [← h, hv, Option.some.injEq] at hv'
    exact Or.inl ⟨rfl, hv'.symm⟩
  | some w =>
    simp only [hs, Except.ok.injEq] at h
    -- What is read is the printed record, since that replaced the first Via.
    obtain ⟨text, -, hp⟩ := via?_eq_some_iff.1 hv
    obtain ⟨text', hg', hp'⟩ := via?_eq_some_iff.1 hv'
    rw [← h, Headers.get?_replaceFirst, Option.some.injEq] at hg'
    rw [← hg'] at hp'
    exact Or.inr (Via.received_of_parse_stamp (Via.printable_of_parse hp) hs hp')

end Request
end SipTestbed
