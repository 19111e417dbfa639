import SipTestbed.Proofs.Ruling

/-! The record of a source as a change of a request in place. It gives the top Via another text and
leaves all else alone; and the new text names the same sender as the old one exactly if the host is
one that is read back from its printed form. -/
namespace SipTestbed

namespace Request

/-- A request that is another one but for the value of its first field of a name. -/
def DiffersAt (n : Text) (r r' : Request) : Prop :=
  r'.method = r.method ∧ r'.uri = r.uri ∧ r'.body = r.body ∧
    ∃ front back v v', (∀ e ∈ front, e.1 ≠ n) ∧ r.headers.entries = front ++ (n, v) :: back ∧
      r'.headers.entries = front ++ (n, v') :: back

theorem run_stampInPlace (src : Endpoint) (r : Request) :
    (stampInPlace src).run r = match r.stamp src with
      | .error f => (.error f, r)
      | .ok r' => (.ok (), r') := by
  rw [stamp, stampInPlace]
  generalize "via".toList = via
  cases hg : r.headers.get? via with
  | none =>
    simp [hg]
    rfl
  | some text =>
    cases hp : Via.parse text with
    | error e =>
      simp [hg, hp]
      rfl
    | ok v =>
      cases hs : v.stamp? src with
      | none =>
        simp [hg, hp, hs]
        rfl
      | some v =>
        simp [hg, hp, hs]
        rfl

theorem differsAt_stamp {src : Endpoint} {r r' : Request} (h : r.stamp src = .ok r') :
    r.DiffersAt "via".toList r' := by
  obtain ⟨v, hv⟩ := via?_of_stamp h
  obtain ⟨text, hg, -⟩ := via?_eq_some_iff.1 hv
  have hnormal : Headers.normalise "via".toList = "via".toList := by decide
  rw [stamp_of_via? hv, Except.ok.injEq] at h
  cases hs : v.stamp? src with
  | none =>
    obtain ⟨front, back, hfront, hes, -⟩ := Headers.entries_replaceFirst hg text
    rw [hnormal] at hfront hes
    rw [hs] at h
    exact h ▸ ⟨rfl, rfl, rfl, front, back, text, text, hfront, hes, hes⟩
  | some w =>
    obtain ⟨front, back, hfront, hes, hes'⟩ := Headers.entries_replaceFirst hg w.render
    rw [hnormal] at hfront hes hes'
    rw [hs] at h
    exact h ▸ ⟨rfl, rfl, rfl, front, back, text, w.render, hfront, hes, hes'⟩

def SameSender (v : Via) (r : Request) : Prop :=
  ∃ v', r.via? = some v' ∧ v'.transport = v.transport ∧ v'.sentBy = v.sentBy

theorem sameSender_stamp_iff {src : Endpoint} {r r' : Request} {v : Via} (hv : r.via? = some v)
    (h : r.stamp src = .ok r') : r'.SameSender v ↔ v.sentBy.Stable := by
  obtain ⟨text, -, hp⟩ := via?_eq_some_iff.1 hv
  rw [stamp_of_via? hv, Except.ok.injEq] at h
  cases hs : v.stamp? src with
  | none =>
    rw [hs] at h
    subst h
    have hstable := HostPort.stable_of_ip (Via.stamp?_eq_none_iff.1 hs).1
    exact ⟨fun _ => hstable, fun _ => ⟨v, hv, rfl, rfl⟩⟩
  | some w =>
    rw [hs] at h
    subst h
    have hback := Via.parse_render_stamp (Via.printable_of_parse hp) hs
    rw [← HostPort.parse_render_iff (Via.host_ne_nil_of_parse hp)]
    constructor
    · intro hsame
      obtain ⟨v', hv', -, hsentBy⟩ := hsame
      obtain ⟨text', hg', hp'⟩ := via?_eq_some_iff.1 hv'
      rw [Headers.get?_replaceFirst, Option.some.injEq] at hg'
      rw [← hg', hback] at hp'
      cases ha : HostPort.parse v.sentBy.render with
      | error e => simp [ha, Except.map] at hp'
      | ok a =>
        simp only [ha, Except.map, Except.ok.injEq] at hp'
        rw [← hsentBy, ← hp']
    · intro ha
      rw [ha] at hback
      exact ⟨_, via?_eq_some_iff.2 ⟨_, Headers.get?_replaceFirst _ _ _, hback⟩, rfl, rfl⟩

/-- A record that cannot be made leaves its request as it is. One that is made leaves everything but
the text of the top Via, and has a good top Via of the same sender exactly if the sender's host and
port are stable. -/
theorem stampInPlace_keeps (src : Endpoint) (r : Request) :
    match r.stamp src, (stampInPlace src).run r with
    | .error f, (result, left) => result = .error f ∧ left = r
    | .ok r', (result, left) => result = .ok () ∧ left = r' ∧ r.DiffersAt "via".toList r' ∧
        ∃ v, r.via? = some v ∧ (r'.SameSender v ↔ v.sentBy.Stable) := by
  rw [run_stampInPlace]
  cases h : r.stamp src with
  | error f => exact ⟨rfl, rfl⟩
  | ok r' =>
    obtain ⟨v, hv⟩ := via?_of_stamp h
    exact ⟨rfl, rfl, differsAt_stamp h, v, hv, sameSender_stamp_iff hv h⟩

end Request

namespace Gate

/-- A sender names a blank in brackets as its host. With its source recorded the top Via is none any
more, and the registration is entered but not answered. -/
theorem unanswered_blankHost :
    let data := Utf8.encode ("REGISTER sip:d SIP/2.0\r\nVia: SIP/2.0/UDP [ ]:5060\r\n".toList ++
      "To: sip:a@d\r\nContact: sip:a@h\r\n\r\n".toList)
    let src : Endpoint := ⟨.v4 192 0 2 7, 5060⟩
    let st := (ofDomain "d".toList 60 .unrestricted).handle ⟨0, true, fun _ => []⟩ .zero data src
    (read? data src).map Request.via? = some none ∧ st.sent = [] ∧
      st.gate.bindings.entries.length = 1 := by
  decide +kernel

end Gate
end SipTestbed
