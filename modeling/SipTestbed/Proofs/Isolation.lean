import SipTestbed.Proofs.Ruling

/-! Users are kept apart. A datagram for one user changes no binding of another, and what it brings
about depends on no other binding than its own user's. -/
namespace SipTestbed

namespace Bindings

theorem live?_lookup (now : Nat) (user : Uri) (v : Text) (bs : Bindings) :
    (bs.lookup now user).2.live? now v = bs.live? now v := by
  have hprune : (bs.prune now).live? now v = bs.live? now v := live?_prune (Nat.le_refl now) v bs
  rw [lookup]
  split
  · rfl
  · split
    · exact hprune
    · exact hprune

theorem live?_unregister (now : Nat) (logical : Uri) (v : Text) (bs : Bindings) :
    (bs.unregister now logical).2.live? now v =
      if v = logical.userKey then none else bs.live? now v := by
  have hprune : (bs.prune now).live? now v = bs.live? now v := live?_prune (Nat.le_refl now) v bs
  rw [unregister]
  cases hf : (bs.prune now).find? logical.userKey with
  | some b => rw [live?_erase, hprune]
  | none =>
    rw [hprune]
    split
    · rename_i hv
      rw [hv]
      exact hf
    · rfl

theorem live?_register_of_ne {logical : Uri} {v : Text} (hv : v ≠ logical.userKey) (now : Nat)
    (domain contact : Uri) (expiry : Nat) (bs : Bindings) :
    (bs.register now domain logical contact expiry).2.live? now v = bs.live? now v := by
  rw [register]
  split
  · rfl
  · split
    · rfl
    · rw [live?_insert, if_neg hv, live?_prune (Nat.le_refl now)]

/-- Bindings of one domain among which a user is bound, or not, in the same way. -/
structure AgreeOn (now : Nat) (user : Text) (bs bs' : Bindings) : Prop where
  domain : bs.domain = bs'.domain
  live? : bs.live? now user = bs'.live? now user

variable {now : Nat} {bs bs' : Bindings}

theorem AgreeOn.serves {user : Text} (h : AgreeOn now user bs bs') (u : Uri) :
    bs.serves u = bs'.serves u := by
  rw [Bindings.serves, Bindings.serves, h.domain]

theorem AgreeOn.prune {user : Text} (h : AgreeOn now user bs bs') :
    AgreeOn now user (bs.prune now) (bs'.prune now) where
  domain := h.domain
  live? := by rw [live?_prune (Nat.le_refl now), live?_prune (Nat.le_refl now), h.live?]

theorem AgreeOn.register {logical : Uri} (h : AgreeOn now logical.userKey bs bs')
    (domain contact : Uri) (expiry : Nat) :
    (bs.register now domain logical contact expiry).1 =
        (bs'.register now domain logical contact expiry).1 ∧
      AgreeOn now logical.userKey (bs.register now domain logical contact expiry).2
        (bs'.register now domain logical contact expiry).2 := by
  rw [Bindings.register, Bindings.register, h.serves, h.serves]
  split
  · exact ⟨rfl, h⟩
  · split
    · exact ⟨rfl, h⟩
    · refine ⟨rfl, h.domain, ?_⟩
      rw [live?_insert, live?_insert, if_pos rfl, if_pos rfl]

theorem AgreeOn.unregister {logical : Uri} (h : AgreeOn now logical.userKey bs bs') :
    (bs.unregister now logical).1 = (bs'.unregister now logical).1 ∧
      AgreeOn now logical.userKey (bs.unregister now logical).2 (bs'.unregister now logical).2 := by
  have hfind : (bs.prune now).find? logical.userKey = (bs'.prune now).find? logical.userKey :=
    h.live?
  have hlive : (bs.unregister now logical).2.live? now logical.userKey =
      (bs'.unregister now logical).2.live? now logical.userKey := by
    rw [live?_unregister, live?_unregister, if_pos rfl, if_pos rfl]
  refine ⟨?_, ?_, hlive⟩
  · rw [Bindings.unregister, Bindings.unregister, hfind]
    cases (bs'.prune now).find? logical.userKey <;> rfl
  · rw [Bindings.unregister, Bindings.unregister, hfind]
    cases (bs'.prune now).find? logical.userKey <;> exact h.domain

theorem AgreeOn.lookup {user : Uri} (h : AgreeOn now user.userKey bs bs') :
    (bs.lookup now user).1 = (bs'.lookup now user).1 ∧
      AgreeOn now user.userKey (bs.lookup now user).2 (bs'.lookup now user).2 := by
  have hfind : (bs.prune now).find? user.userKey = (bs'.prune now).find? user.userKey := h.live?
  rw [Bindings.lookup, Bindings.lookup, h.serves, hfind]
  split
  · exact ⟨rfl, h⟩
  · cases (bs'.prune now).find? user.userKey with
    | some b => exact ⟨rfl, h.prune⟩
    | none => exact ⟨rfl, h.prune⟩

end Bindings

namespace Intent

theorem live?_fulfil_of_ne {user : Uri} {v : Text} (hv : v ≠ user.userKey) (now : Nat)
    (bs : Bindings) (i : Intent) : (i.fulfil now user bs).2.live? now v = bs.live? now v := by
  cases i with
  | remove => exact (Bindings.live?_unregister now user v bs).trans (if_neg hv)
  | query => exact Bindings.live?_lookup now user v bs
  | bind domain contact secs => exact Bindings.live?_register_of_ne hv now domain contact _ bs

theorem fulfil_congr {now : Nat} {user : Uri} {bs bs' : Bindings}
    (h : bs.AgreeOn now user.userKey bs') (i : Intent) :
    (i.fulfil now user bs).1 = (i.fulfil now user bs').1 ∧
      (i.fulfil now user bs).2.AgreeOn now user.userKey (i.fulfil now user bs').2 := by
  cases i with
  | remove => exact h.unregister
  | query => exact h.lookup
  | bind domain contact secs => exact h.register domain contact _

end Intent

namespace Registrar

variable {req : Request} {user : Uri}

theorem live?_answer_of_ne (hn : req.Names user) {v : Text} (hv : v ≠ user.userKey) (now : Nat)
    (fresh : Fresh) (port : UInt16) (r : Registrar) :
    (r.answer now fresh req port).2.live? now v = r.bindings.live? now v := by
  rw [answer]
  cases hi : Intent.ofRequest r.defaultExpiry port req with
  | error f => rfl
  | ok ui =>
    obtain ⟨u, intent⟩ := ui
    have hu : user = u := Request.names_unique hn (Intent.names_of_ofRequest hi)
    subst hu
    have hlive := Intent.live?_fulfil_of_ne hv now r.bindings intent
    simp only
    cases hf : intent.fulfil now user r.bindings with
    | mk result bs =>
      rw [hf] at hlive
      cases result with
      | ok reg => exact hlive
      | error e => exact hlive

theorem answer_congr (hn : req.Names user) {now : Nat} {bs bs' : Bindings}
    (h : bs.AgreeOn now user.userKey bs') (fresh : Fresh) (port : UInt16) (default : Nat) :
    (answer now fresh req port ⟨default, bs⟩).1 = (answer now fresh req port ⟨default, bs'⟩).1 ∧
      (answer now fresh req port ⟨default, bs⟩).2.AgreeOn now user.userKey
        (answer now fresh req port ⟨default, bs'⟩).2 := by
  rw [answer, answer]
  cases hi : Intent.ofRequest default port req with
  | error f => exact ⟨rfl, h⟩
  | ok ui =>
    obtain ⟨u, intent⟩ := ui
    have hu : user = u := Request.names_unique hn (Intent.names_of_ofRequest hi)
    subst hu
    obtain ⟨hresult, hagree⟩ := Intent.fulfil_congr h intent
    simp only
    cases hf : intent.fulfil now user bs with
    | mk result after =>
      cases hf' : intent.fulfil now user bs' with
      | mk result' after' =>
        rw [hf, hf'] at hresult hagree
        simp only at hresult hagree
        subst hresult
        cases result with
        | ok reg => exact ⟨rfl, hagree⟩
        | error e => exact ⟨rfl, hagree⟩

theorem answer_snd_of_not_names (hn : ∀ user, ¬ req.Names user) (now : Nat) (fresh : Fresh)
    (port : UInt16) (r : Registrar) : (r.answer now fresh req port).2 = r.bindings := by
  rw [answer]
  cases hi : Intent.ofRequest r.defaultExpiry port req with
  | error f => rfl
  | ok ui => exact absurd (Intent.names_of_ofRequest hi) (hn ui.1)

end Registrar

namespace Gate

theorem live?_rule_of_ne {r : Request} {user : Uri} (hn : r.Names user) {v : Text}
    (hv : v ≠ user.userKey) (now : Nat) (fresh : Fresh) (src : Endpoint) (g : Gate) :
    (g.rule now fresh src r).bindings.live? now v = g.bindings.live? now v := by
  obtain ⟨-, -, -, hb⟩ | ⟨-, hb, -⟩ := rule_cases now fresh src r g
  · rw [hb]
    exact Registrar.live?_answer_of_ne hn hv now fresh src.port g.registrar
  · rw [hb]

/-- Rulings with the same reply and the same calls that leave a user bound in the same way. -/
structure SameFor (now : Nat) (user : Text) (d d' : Ruling) : Prop where
  reply : d.reply = d'.reply
  asked : d.asked = d'.asked
  agree : d.bindings.AgreeOn now user d'.bindings

theorem judge_congr {call : Call} {user : Uri} (hn : call.request.Names user) {now : Nat} {g : Gate}
    {bs : Bindings} (h : g.bindings.AgreeOn now user.userKey bs) (fresh : Fresh) :
    SameFor now user.userKey (g.judge now fresh call)
      ((g.withBindings bs).judge now fresh call) := by
  obtain ⟨⟨default, bindings⟩, policy, calls⟩ := g
  obtain ⟨hreply, hafter⟩ := Registrar.answer_congr hn h fresh call.port default
  have hadmitted (asked : List Call) :
      SameFor now user.userKey
        ⟨some (Registrar.answer now fresh call.request call.port ⟨default, bindings⟩).1, asked,
          (Registrar.answer now fresh call.request call.port ⟨default, bindings⟩).2⟩
        ⟨some (Registrar.answer now fresh call.request call.port ⟨default, bs⟩).1, asked,
          (Registrar.answer now fresh call.request call.port ⟨default, bs⟩).2⟩ :=
    ⟨congrArg some hreply, rfl, hafter⟩
  cases policy with
  | unrestricted => exact hadmitted []
  | ask judge =>
    simp only [Gate.judge, withBindings]
    cases judge calls call with
    | allow => exact hadmitted [call]
    | deny =>
      have hrealm : Registrar.challenged fresh call.request ⟨default, bindings⟩ =
          Registrar.challenged fresh call.request ⟨default, bs⟩ := by
        have hdomain : bindings.domain = bs.domain := h.domain
        simp only [Registrar.challenged, Registrar.host, hdomain]
      exact ⟨congrArg some hrealm, rfl, h⟩
    | crash => exact ⟨rfl, rfl, h⟩

theorem rule_congr {r : Request} {user : Uri} (hn : r.Names user) {now : Nat} {g : Gate}
    {bs : Bindings} (h : g.bindings.AgreeOn now user.userKey bs) (fresh : Fresh) (src : Endpoint) :
    SameFor now user.userKey (g.rule now fresh src r)
      ((g.withBindings bs).rule now fresh src r) := by
  rw [rule, rule]
  split
  · exact judge_congr hn h fresh
  · split
    · exact ⟨rfl, rfl, h⟩
    · exact ⟨rfl, rfl, h⟩

theorem bindings_rule_of_not_names {r : Request} (hno : r.method = "REGISTER".toList →
    ∀ user, ¬ r.Names user) (now : Nat) (fresh : Fresh) (src : Endpoint) (g : Gate) :
    (g.rule now fresh src r).bindings = g.bindings := by
  obtain ⟨hm, -, -, hb⟩ | ⟨-, hb, -⟩ := rule_cases now fresh src r g
  · rw [hb]
    exact Registrar.answer_snd_of_not_names (hno hm) now fresh src.port g.registrar
  · exact hb

/-- A datagram holds a request whose To names a user. -/
def IsFor (user : Uri) (data : Utf8.Octets) : Prop :=
  ∃ raw, Message.parse data = .ok (.request raw) ∧ raw.Names user

def IsRegistrationFor (user : Uri) (data : Utf8.Octets) : Prop :=
  ∃ raw, Message.parse data = .ok (.request raw) ∧ raw.method = "REGISTER".toList ∧ raw.Names user

theorem names_of_isFor {user : Uri} {data : Utf8.Octets} {src : Endpoint} {r : Request}
    (h : IsFor user data) (hread : read? data src = some r) : r.Names user := by
  obtain ⟨raw, hparse, hn⟩ := h
  obtain ⟨raw', hparse', hstamp⟩ := read?_eq_some_iff.1 hread
  rw [hparse, Except.ok.injEq, Message.request.injEq] at hparse'
  exact (Request.names_stamp (hparse' ▸ hstamp) user).2 hn

theorem live?_handle_of_ne {user : Uri} {data : Utf8.Octets} (h : IsFor user data) {v : Text}
    (hv : v ≠ user.userKey) (w : World) (fresh : Fresh) (src : Endpoint) (g : Gate) :
    (g.handle w fresh data src).gate.bindings.live? w.now v = g.bindings.live? w.now v := by
  rw [handle_eq]
  cases hread : read? data src with
  | none => rfl
  | some r => exact live?_rule_of_ne (names_of_isFor h hread) hv w.now fresh src g

theorem handle_congr {user : Uri} {data : Utf8.Octets} (h : IsFor user data) {w : World} {g : Gate}
    {bs : Bindings} (hagree : g.bindings.AgreeOn w.now user.userKey bs) (fresh : Fresh)
    (src : Endpoint) :
    (g.handle w fresh data src).asked = ((g.withBindings bs).handle w fresh data src).asked ∧
      (g.handle w fresh data src).sent = ((g.withBindings bs).handle w fresh data src).sent ∧
      (g.handle w fresh data src).gate.bindings.live? w.now user.userKey =
        ((g.withBindings bs).handle w fresh data src).gate.bindings.live? w.now user.userKey := by
  rw [handle_eq, handle_eq]
  cases hread : read? data src with
  | none => exact ⟨rfl, rfl, hagree.live?⟩
  | some r =>
    have hsame := rule_congr (names_of_isFor h hread) hagree fresh src
    refine ⟨hsame.asked, ?_, hsame.agree.live?⟩
    simp only [Ruling.carryOut, hsame.reply]

theorem bindings_handle_of_not_registration {data : Utf8.Octets}
    (hno : ∀ user, ¬ IsRegistrationFor user data) (w : World) (fresh : Fresh) (src : Endpoint)
    (g : Gate) : (g.handle w fresh data src).gate.bindings = g.bindings := by
  rw [handle_eq]
  cases hread : read? data src with
  | none => rfl
  | some r =>
    obtain ⟨raw, hparse, hstamp⟩ := read?_eq_some_iff.1 hread
    apply bindings_rule_of_not_names
    intro hm user hn
    have hraw : raw.method = "REGISTER".toList := (Request.stamp_frame hstamp).1.symm.trans hm
    exact hno user ⟨raw, hparse, hraw, (Request.names_stamp hstamp user).1 hn⟩

/-- A datagram for a user leaves the bindings of all others as they are, and its calls, its reply
and what becomes of the user's own binding are the same whatever those others are. A datagram that
registers nobody changes no binding. -/
theorem handle_isolated (w : World) (fresh : Fresh) (data : Utf8.Octets) (src : Endpoint)
    (g : Gate) :
    (∀ user, IsFor user data →
      let key := (user.user.map UserInfo.name).getD []
      (∀ v, v ≠ key →
        (g.handle w fresh data src).gate.bindings.live? w.now v = g.bindings.live? w.now v) ∧
      ∀ bs, g.bindings.AgreeOn w.now key bs →
        (g.handle w fresh data src).asked = ((g.withBindings bs).handle w fresh data src).asked ∧
        (g.handle w fresh data src).sent = ((g.withBindings bs).handle w fresh data src).sent ∧
        (g.handle w fresh data src).gate.bindings.live? w.now key =
          ((g.withBindings bs).handle w fresh data src).gate.bindings.live? w.now key) ∧
    ((∀ user, ¬ IsRegistrationFor user data) →
      (g.handle w fresh data src).gate.bindings.live w.now = g.bindings.live w.now) := by
  refine ⟨?_, ?_⟩
  · intro user h
    exact ⟨fun v hv => live?_handle_of_ne h hv w fresh src g,
      fun bs hagree => handle_congr h hagree fresh src⟩
  · intro hno
    rw [bindings_handle_of_not_registration hno]

def userAt (name : String) : Uri := ⟨.sip, some ⟨name.toList, none⟩, ⟨"d".toList, none⟩, [], none⟩

def withBob : Gate :=
  (ofDomain "d".toList 60 .unrestricted).withBindings
    ⟨"d".toList, [("bob".toList, ⟨userAt "b", second⟩)]⟩

def aliceRemoval : Utf8.Octets :=
  Utf8.encode ("REGISTER sip:d SIP/2.0\r\nVia: SIP/2.0/UDP h\r\n".toList ++
    "To: <sip:alice@d>\r\nExpires: 0\r\n\r\n".toList)

theorem handle_isolated_alice : IsFor (userAt "alice") aliceRemoval ∧
    (withBob.handle ⟨0, true, fun _ => []⟩ .zero aliceRemoval
      ⟨.v4 127 0 0 1, 5060⟩).gate.bindings.live? 0 "bob".toList = some ⟨userAt "b", second⟩ := by
  have halice : IsFor (userAt "alice") aliceRemoval := by
    refine ⟨⟨"REGISTER".toList, "sip:d".toList, ⟨[("via".toList, "SIP/2.0/UDP h".toList),
      ("to".toList, "<sip:alice@d>".toList), ("expires".toList, ['0'])]⟩, []⟩, by decide +kernel,
      "<sip:alice@d>".toList, ⟨[], userAt "alice", []⟩, by decide +kernel, by decide +kernel, rfl⟩
  have hbob : withBob.bindings.live? 0 "bob".toList = some ⟨userAt "b", second⟩ := by
    decide +kernel
  have hkept := ((handle_isolated ⟨0, true, fun _ => []⟩ .zero aliceRemoval ⟨.v4 127 0 0 1, 5060⟩
    withBob).1 (userAt "alice") halice).1 "bob".toList (by decide)
  exact ⟨halice, hkept.trans hbob⟩

end Gate
end SipTestbed
