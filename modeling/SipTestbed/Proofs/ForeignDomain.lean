import SipTestbed.Proofs.Gating

/-! Users of other domains. Every question about them is refused and no binding is made for them,
but a removal looks at the user part alone and takes the binding of a user of this domain. -/
namespace SipTestbed

namespace Bindings

/-- An operation on a URI, as the domain or as the user. -/
def Op.Concerns (u : Uri) : Op → Prop
  | .register domain logical _ _ => domain = u ∨ logical = u
  | .unregister logical => logical = u
  | .lookup user => user = u
  | .address user => user = u
  | .count => False
  | .isEmpty => False

/-- An operation ends in an error and leaves the live bindings as they are. -/
def Refuses (now : Nat) (op : Op) (bs : Bindings) : Prop :=
  (∃ e, (bs.perform now op).1 = .refusal e) ∧ (bs.perform now op).2.live now = bs.live now

theorem register_foreign {bs : Bindings} {domain logical : Uri}
    (h : bs.serves domain = false ∨ bs.serves logical = false) (now : Nat) (contact : Uri)
    (expiry : Nat) :
    bs.register now domain logical contact expiry = (.error (.refused 404), bs) := by
  cases h with
  | inl hd => simp [register, hd]
  | inr hl => simp [register, hl]

theorem lookup_foreign {bs : Bindings} {user : Uri} (h : bs.serves user = false) (now : Nat) :
    bs.lookup now user = (.error (.unknownDomain user.host), bs) := by
  simp [lookup, h]

theorem refuses_unregister_iff {now : Nat} {user : Uri} {bs : Bindings} :
    bs.Refuses now (.unregister user) ↔ bs.live? now user.userKey = none := by
  constructor
  · intro h
    have hlive := h.2
    rw [perform, Prod.map_snd, id, live_unregister] at hlive
    exact filter_live_eq_self_iff.1 hlive
  · intro h
    obtain ⟨e, he⟩ := unregister_eq_error_iff.2 h
    refine ⟨⟨e, ?_⟩, ?_⟩
    · rw [perform, Prod.map_fst, he, Answer.ofResult]
    · exact live_unregister_of_error he

theorem refuses_iff {bs : Bindings} {u : Uri} (hu : bs.serves u = false) {op : Op}
    (hop : op.Concerns u) (now : Nat) :
    bs.Refuses now op ↔ ¬ (op = .unregister u ∧ ∃ b, bs.live? now u.userKey = some b) := by
  cases op with
  | register domain logical contact expiry =>
    have hforeign : bs.serves domain = false ∨ bs.serves logical = false := by
      cases hop with
      | inl hd => exact Or.inl (hd ▸ hu)
      | inr hl => exact Or.inr (hl ▸ hu)
    simp [Refuses, perform, register_foreign hforeign, Answer.ofResult]
  | unregister logical =>
    have hl : logical = u := hop
    subst hl
    rw [refuses_unregister_iff]
    cases bs.live? now logical.userKey <;> simp
  | lookup user =>
    have hl : user = u := hop
    subst hl
    simp [Refuses, perform, lookup_foreign hu, Answer.ofResult]
  | address user =>
    have hl : user = u := hop
    subst hl
    simp [Refuses, perform, lookup_foreign hu, Answer.ofAddress]
  | count => exact absurd hop id
  | isEmpty => exact absurd hop id

end Bindings

namespace Registrar

theorem live_answer_foreign {r : Registrar} {req : Request} {user : Uri} (hn : req.Names user)
    (hu : r.bindings.serves user = false) (now : Nat) (fresh : Fresh) (port : UInt16) :
    (req.AsksRemoval r.defaultExpiry → (r.answer now fresh req port).2.live now =
      (r.bindings.live now).filter fun e => e.1 != user.userKey) ∧
    (¬ req.AsksRemoval r.defaultExpiry →
      (r.answer now fresh req port).2.live now = r.bindings.live now) := by
  constructor
  · intro hasks
    have hi : Intent.ofRequest r.defaultExpiry port req = .ok (user, .remove) :=
      Intent.ofRequest_eq_remove_iff.2 ⟨hn, hasks⟩
    rw [← Bindings.live_unregister now user r.bindings, answer, hi]
    simp only [Intent.fulfil]
    cases hf : r.bindings.unregister now user with
    | mk result bs => cases result <;> rfl
  · intro hasks
    rw [answer]
    cases hi : Intent.ofRequest r.defaultExpiry port req with
    | error f => rfl
    | ok ui =>
      obtain ⟨u, intent⟩ := ui
      have huser : user = u := Request.names_unique hn (Intent.names_of_ofRequest hi)
      subst huser
      cases intent with
      | remove => exact absurd (Intent.ofRequest_eq_remove_iff.1 hi).2 hasks
      | query =>
        simp only [Intent.fulfil, Bindings.lookup_foreign hu]
      | bind domain contact secs =>
        simp only [Intent.fulfil, Bindings.register_foreign (Or.inr hu)]

end Registrar

namespace Gate

/-- A datagram asks for a removal, and reaches the registrar. -/
def Removes (data : Utf8.Octets) (src : Endpoint) (raw : Request) (g : Gate) : Prop :=
  IsRegistration data raw ∧ raw.AsksRemoval g.registrar.defaultExpiry ∧
    ∃ r, raw.stamp src = .ok r ∧ g.Admits src r

theorem live_handle_foreign {data : Utf8.Octets} {raw : Request} {user : Uri} {g : Gate}
    (hparse : Message.parse data = .ok (.request raw)) (hn : raw.Names user)
    (hu : g.bindings.serves user = false) (w : World) (fresh : Fresh) (src : Endpoint) :
    (g.Removes data src raw → (g.handle w fresh data src).gate.bindings.live w.now =
      (g.bindings.live w.now).filter fun e => e.1 != user.userKey) ∧
    (¬ g.Removes data src raw →
      (g.handle w fresh data src).gate.bindings.live w.now = g.bindings.live w.now) := by
  by_cases hreg : IsRegistration data raw
  · obtain ⟨r, hr, hread, hm⟩ := read?_of_isRegistration hreg src
    have hnames : r.Names user := (Request.names_stamp hr user).2 hn
    have hanswer := Registrar.live_answer_foreign hnames hu w.now fresh src.port
    rw [Request.asksRemoval_stamp hr] at hanswer
    simp only [handle_eq, hread, Ruling.bindings_carryOut]
    -- Only an admitted registration reaches the bindings, so the policy decides which case it is.
    obtain ⟨-, hadm, -, hb⟩ | ⟨hno, hb, -⟩ := rule_cases w.now fresh src r g
    · rw [hb]
      refine ⟨fun h => hanswer.1 h.2.1, ?_⟩
      intro h
      exact hanswer.2 fun hasks => h ⟨hreg, hasks, r, hr, hadm⟩
    · rw [hb]
      refine ⟨?_, fun _ => rfl⟩
      intro h
      obtain ⟨-, -, r', hr', hadm⟩ := h
      rw [hr, Except.ok.injEq] at hr'
      exact absurd ⟨hm, hr' ▸ hadm⟩ hno
  · have hno : ∀ raw', ¬ IsRegistration data raw' := by
      intro raw' h
      have hraw := h.1
      rw [hparse, Except.ok.injEq, Message.request.injEq] at hraw
      exact hreg (hraw ▸ h)
    refine ⟨fun h => absurd h.1 hreg, ?_⟩
    intro _
    rw [(handle_of_not_isRegistration hno).2]

/-- A user of another domain: each operation on it is refused, but for the removal of a binding
that is live under its user part; a datagram for it changes nothing, but for a removal that the
policy admits, and that takes just this binding. -/
theorem foreign_domain (user : Uri) (g : Gate) (hu : g.bindings.serves user = false) :
    (∀ now op, op.Concerns user → (g.bindings.Refuses now op ↔
      ¬ (op = .unregister user ∧ ∃ b, g.bindings.live? now user.userKey = some b))) ∧
    (∀ w fresh data src raw, Message.parse data = .ok (.request raw) → raw.Names user →
      ((g.handle w fresh data src).gate.bindings.live w.now = g.bindings.live w.now ↔
        ¬ (g.Removes data src raw ∧ ∃ b, g.bindings.live? w.now user.userKey = some b)) ∧
      (g.Removes data src raw → (g.handle w fresh data src).gate.bindings.live w.now =
        (g.bindings.live w.now).filter fun e => e.1 != user.userKey)) := by
  constructor
  · intro now op hop
    exact Bindings.refuses_iff hu hop now
  · intro w fresh data src raw hparse hn
    have hlive := live_handle_foreign hparse hn hu w fresh src
    refine ⟨?_, hlive.1⟩
    by_cases hrem : g.Removes data src raw
    · rw [hlive.1 hrem, Bindings.filter_live_eq_self_iff]
      cases g.bindings.live? w.now user.userKey <;> simp [hrem]
    · simp [hlive.2 hrem, hrem]

def aliceAt (host : Text) : Uri := ⟨.sip, some ⟨"alice".toList, none⟩, ⟨host, none⟩, [], none⟩

/-- A gate that has bound alice of the domain `d` for a minute. -/
def withAlice : Gate :=
  (ofDomain "d".toList 60 .unrestricted).withBindings
    ((Bindings.empty "d".toList).register 0 (aliceAt "d".toList) (aliceAt "d".toList)
      (aliceAt "h".toList) (60 * second)).2

theorem foreign_domain_withAlice :
    withAlice.bindings.serves (aliceAt "e".toList) = false ∧
      withAlice.bindings.Refuses 0 (.lookup (aliceAt "e".toList)) ∧
      ¬ withAlice.bindings.Refuses 0 (.unregister (aliceAt "e".toList)) := by
  have hu : withAlice.bindings.serves (aliceAt "e".toList) = false := by decide +kernel
  have hops := (foreign_domain (aliceAt "e".toList) withAlice hu).1
  refine ⟨hu, ?_, ?_⟩
  · apply (hops 0 (.lookup (aliceAt "e".toList)) rfl).2
    intro h
    cases h.1
  · intro h
    have hlive : withAlice.bindings.live? 0 (aliceAt "e".toList).userKey =
        some ⟨aliceAt "h".toList, 60 * second⟩ := by decide +kernel
    exact (hops 0 (.unregister (aliceAt "e".toList)) rfl).1 h ⟨rfl, _, hlive⟩

/-- Alice of the domain `e` takes the binding from alice of the domain `d`. -/
theorem unregister_other_domain :
    withAlice.bindings.serves (aliceAt "e".toList) = false ∧
      withAlice.bindings.unregister 0 (aliceAt "e".toList) =
        (.ok ⟨0, aliceAt "h".toList⟩, Bindings.empty "d".toList) ∧
      withAlice.bindings.live 0 ≠ [] ∧
      (withAlice.handle ⟨0, true, fun _ => []⟩ .zero
        (Utf8.encode ("REGISTER sip:e SIP/2.0\r\nVia: SIP/2.0/UDP h\r\n".toList ++
          "To: <sip:alice@e>\r\nExpires: 0\r\n\r\n".toList))
        ⟨.v4 127 0 0 1, 5060⟩).gate.bindings.live 0 = [] := by
  decide +kernel

end Gate
end SipTestbed
