import SipTestbed.Gate.Basic
import SipTestbed.Proofs.Delivery
import SipTestbed.Proofs.LiveBindings
import SipTestbed.Proofs.Intent
import SipTestbed.Proofs.Source

/-! A datagram is served in two stages. First it is settled what the request comes to, the reply
and the bindings; then the reply is sent, once, and how that ends changes nothing any more. -/
namespace SipTestbed

/-- What a request comes to before anything is sent. -/
structure Ruling where
  reply : Option Response
  asked : List Call
  bindings : Bindings

def Ruling.carryOut (w : World) (g : Gate) (d : Ruling) : Gate.Step where
  sent := match d.reply with
    | some r => (r.deliver w).sent
    | none => []
  asked := d.asked
  gate := { g.withBindings d.bindings with calls := g.calls ++ d.asked }

def Intent.fulfil (now : Nat) (user : Uri) (bs : Bindings) :
    Intent → Except BindingError Registration × Bindings
  | .remove => bs.unregister now user
  | .query => bs.lookup now user
  | .bind domain contact secs => bs.register now domain user contact (secs * second)

/-- A wish comes to a new binding, or else to an answer about what there is, of which nothing is
changed and some may be dropped. -/
theorem Intent.fulfil_cases (now : Nat) (user : Uri) (bs : Bindings) (i : Intent) :
    (∃ domain contact secs, i = .bind domain contact secs ∧ bs.serves user = true ∧
      i.fulfil now user bs = (.ok ⟨secs, contact⟩,
        (bs.prune now).insert user.userKey ⟨contact, now + secs * second⟩)) ∨
    ((i.fulfil now user bs).2.domain = bs.domain ∧
      (i.fulfil now user bs).2.entries ⊆ bs.entries ∧
      ∀ reg, (i.fulfil now user bs).1 = .ok reg → ∃ e ∈ bs.entries,
        reg.contact = e.2.contact ∧ reg.seconds ≤ (e.2.deadline - now) / second) := by
  have hprune : (bs.prune now).entries ⊆ bs.entries := List.filter_subset_self _
  have hfound {b : Binding} (hb : (bs.prune now).find? user.userKey = some b) :
      (user.userKey, b) ∈ bs.entries := hprune (Bindings.mem_of_find? hb)
  cases i with
  | remove =>
    refine Or.inr ?_
    rw [fulfil, Bindings.unregister]
    cases hf : (bs.prune now).find? user.userKey with
    | none => exact ⟨rfl, hprune, by simp⟩
    | some b =>
      refine ⟨rfl, List.Subset.trans (List.filter_subset_self _) hprune, ?_⟩
      intro reg hreg
      cases hreg
      exact ⟨_, hfound hf, rfl, Nat.zero_le _⟩
  | query =>
    refine Or.inr ?_
    rw [fulfil, Bindings.lookup]
    split
    · exact ⟨rfl, List.Subset.refl _, by simp⟩
    · cases hf : (bs.prune now).find? user.userKey with
      | none => exact ⟨rfl, hprune, by simp⟩
      | some b =>
        refine ⟨rfl, hprune, ?_⟩
        intro reg hreg
        cases hreg
        exact ⟨_, hfound hf, rfl, Nat.le_refl _⟩
  | bind domain contact secs =>
    by_cases hforeign : (!(bs.serves domain && bs.serves user)) = true
    · refine Or.inr ?_
      rw [fulfil, Bindings.register, if_pos hforeign]
      exact ⟨rfl, List.Subset.refl _, by simp⟩
    · have hserved : bs.serves domain = true ∧ bs.serves user = true := by simpa using hforeign
      by_cases htime : clockLimit ≤ now + secs * second
      · refine Or.inr ?_
        rw [fulfil, Bindings.register, if_neg hforeign, if_pos htime]
        exact ⟨rfl, List.Subset.refl _, by simp⟩
      · have hsecs : secs * second / second = secs := Nat.mul_div_cancel secs (by decide)
        refine Or.inl ⟨domain, contact, secs, rfl, hserved.2, ?_⟩
        rw [fulfil, Bindings.register_eq_ok hserved.1 hserved.2 (Nat.lt_of_not_le htime), hsecs]

theorem Intent.live_fulfil_of_error {now : Nat} {user : Uri} {bs : Bindings} {i : Intent}
    {e : BindingError} (h : (i.fulfil now user bs).1 = .error e) :
    (i.fulfil now user bs).2.live now = bs.live now := by
  cases i with
  | remove => exact Bindings.live_unregister_of_error h
  | query => exact Bindings.live_lookup now user bs
  | bind domain contact secs => exact Bindings.live_register_of_error h

namespace Registrar

def answer (now : Nat) (fresh : Fresh) (req : Request) (port : UInt16) (r : Registrar) :
    Response × Bindings :=
  match Intent.ofRequest r.defaultExpiry port req with
  | .error _ => (req.reply fresh.tag 400, r.bindings)
  | .ok (user, intent) =>
    match intent.fulfil now user r.bindings with
    | (.ok reg, bs) => (confirmation fresh req reg, bs)
    | (.error e, bs) => (req.reply fresh.tag e.status, bs)

theorem checkExpires_of_text {req : Request} {v : Text} {n : Nat}
    (ht : Intent.expiresText? req = some v) (hn : Decimal.readU64? v = some n) :
    checkExpires req = .ok () := by
  rw [Intent.expiresText?] at ht
  rw [checkExpires]
  cases hg : req.headers.get? "expires".toList with
  | none => simp only [hg, Option.map_none, reduceCtorEq] at ht
  | some w =>
    rw [hg, Option.map_some, Option.some.injEq] at ht
    rw [← ht] at hn
    simp [hn]

theorem checkExpires_of_no_text {req : Request} (ht : Intent.expiresText? req = none) :
    checkExpires req = .ok () := by
  rw [Intent.expiresText?] at ht
  rw [checkExpires]
  cases hg : req.headers.get? "expires".toList with
  | none => rfl
  | some w =>
    rw [hg] at ht
    cases ht

theorem checkExpires_of_remove {default : Nat} {port : UInt16} {req : Request} {user : Uri}
    (h : Intent.ofRequest default port req = .ok (user, .remove)) : checkExpires req = .ok () := by
  have hasks : req.AsksRemoval default := (Intent.ofRequest_eq_remove_iff.1 h).2
  cases hasks with
  | inl h0 =>
    have hzero : Decimal.readU64? ['0'] = some 0 := by decide
    exact checkExpires_of_text h0 hzero
  | inr hc =>
    obtain ⟨text, a, -, -, hs⟩ := hc
    cases ht : Intent.expiresText? req with
    | none => exact checkExpires_of_no_text ht
    | some v =>
      rw [ht] at hs
      cases hn : Decimal.readU64? v with
      | none => simp [Intent.seconds, hn] at hs
      | some n => exact checkExpires_of_text ht hn

theorem register_eq (w : World) (fresh : Fresh) (req : Request) (port : UInt16) (r : Registrar) :
    r.register w fresh req port =
      match Intent.ofRequest r.defaultExpiry port req with
      | .error f => ⟨.error f, [], r.bindings⟩
      | .ok (user, intent) => confirm w fresh req (intent.fulfil w.now user r.bindings) := by
  rw [register]
  cases hi : Intent.ofRequest r.defaultExpiry port req with
  | error f => rfl
  | ok ui =>
    obtain ⟨user, intent⟩ := ui
    cases intent with
    | remove => simp [unregister, checkExpires_of_remove hi, Intent.fulfil]
    | query => rfl
    | bind domain contact secs => rfl

theorem get?_via_confirmation (fresh : Fresh) (req : Request) (reg : Registration) :
    (confirmation fresh req reg).headers.get? "via".toList = req.headers.get? "via".toList := by
  rw [confirmation, get?_via_addHeader (by decide), get?_via_addHeader (by decide), get?_via_reply]

def challenged (fresh : Fresh) (req : Request) (r : Registrar) : Response :=
  (req.reply fresh.tag 401).addHeader "www-authenticate".toList (challenge fresh r.host)

theorem get?_via_challenged (fresh : Fresh) (req : Request) (r : Registrar) :
    (r.challenged fresh req).headers.get? "via".toList = req.headers.get? "via".toList := by
  rw [challenged, get?_via_addHeader (by decide), get?_via_reply]

theorem get?_via_answer (now : Nat) (fresh : Fresh) (req : Request) (port : UInt16)
    (r : Registrar) :
    (r.answer now fresh req port).1.headers.get? "via".toList = req.headers.get? "via".toList := by
  rw [answer]
  split
  · exact get?_via_reply fresh.tag 400 req
  · split
    · exact get?_via_confirmation fresh req _
    · exact get?_via_reply fresh.tag _ req

/-- An answer other than a 200 leaves the live bindings alone. -/
theorem live_answer {now : Nat} {fresh : Fresh} {req : Request} {port : UInt16} {r : Registrar}
    (h : (r.answer now fresh req port).1.code ≠ 200) :
    (r.answer now fresh req port).2.live now = r.bindings.live now := by
  rw [answer] at h ⊢
  split
  · rfl
  · rename_i user intent hi
    cases hf : intent.fulfil now user r.bindings with
    | mk result bs =>
      cases result with
      | ok reg =>
        simp only [hi, hf] at h
        exact absurd rfl h
      | error e =>
        have hlive : (intent.fulfil now user r.bindings).2.live now = r.bindings.live now :=
          Intent.live_fulfil_of_error (congrArg Prod.fst hf)
        rwa [hf] at hlive

end Registrar

@[simp] theorem Ruling.asked_carryOut (w : World) (g : Gate) (d : Ruling) :
    (d.carryOut w g).asked = d.asked := rfl

@[simp] theorem Ruling.bindings_carryOut (w : World) (g : Gate) (d : Ruling) :
    (d.carryOut w g).gate.bindings = d.bindings := rfl

theorem Ruling.mem_sent_carryOut {w : World} {g : Gate} {d : Ruling} {a : Attempt}
    (h : a ∈ (d.carryOut w g).sent) :
    ∃ resp, d.reply = some resp ∧ a ∈ (resp.deliver w).sent := by
  rw [carryOut] at h
  cases hr : d.reply with
  | none => simp [hr] at h
  | some resp => exact ⟨resp, rfl, by simpa [hr] using h⟩

namespace Gate

/-- The request of a datagram, with its source recorded. -/
def read? (data : Utf8.Octets) (src : Endpoint) : Option Request :=
  match Message.parse data with
  | .ok (.request r) => (r.stamp src).toOption
  | _ => none

def judge (now : Nat) (fresh : Fresh) (call : Call) (g : Gate) : Ruling :=
  let answer := g.registrar.answer now fresh call.request call.port
  match g.policy with
  | .unrestricted => ⟨some answer.1, [], answer.2⟩
  | .ask judge =>
    match judge g.calls call with
    | .allow => ⟨some answer.1, [call], answer.2⟩
    | .deny => ⟨some (g.registrar.challenged fresh call.request), [call], g.bindings⟩
    | .crash => ⟨some (call.request.reply fresh.tag 500), [call], g.bindings⟩

def rule (now : Nat) (fresh : Fresh) (src : Endpoint) (r : Request) (g : Gate) : Ruling :=
  if r.method = "REGISTER".toList then g.judge now fresh ⟨r, src.ip.render, src.port⟩
  else if r.method = "ACK".toList then ⟨none, [], g.bindings⟩
  else ⟨some (r.reply fresh.tag 501), [], g.bindings⟩

theorem report_fault {f : Fault} {code : UInt16} (h : f.status = some code) (w : World)
    (fresh : Fresh) (r : Request) (asked : List Call) (bs : Bindings) (g : Gate) :
    report w fresh r (g.follow asked ⟨.error f, [], bs⟩) =
      Ruling.carryOut w g ⟨some (r.reply fresh.tag code), asked, bs⟩ := by
  simp [report, follow, Ruling.carryOut, h]

/-- Once a reply is due, a failed delivery is not answered with another one: either something was
sent, or no reply to this request can be sent at all. -/
theorem report_delivery (w : World) (fresh : Fresh) (r : Request) (resp : Response)
    (asked : List Call) (bs : Bindings) (g : Gate)
    (hvia : resp.headers.get? "via".toList = r.headers.get? "via".toList) :
    report w fresh r (g.follow asked (.ofDelivery bs (resp.deliver w))) =
      Ruling.carryOut w g ⟨some resp, asked, bs⟩ := by
  cases hres : (resp.deliver w).result with
  | ok u => simp [report, follow, Registrar.Outcome.ofDelivery, Ruling.carryOut, hres]
  | error f =>
    cases hs : f.status with
    | none => simp [report, follow, Registrar.Outcome.ofDelivery, Ruling.carryOut, hres, hs]
    | some code =>
      -- A fault with a status comes before any sending, and stops the second reply as well.
      have hsecond : ((r.reply fresh.tag code).deliver w).sent = [] := by
        apply sent_deliver_of_status hres hs
        rw [hvia, get?_via_reply]
      simp [report, follow, Registrar.Outcome.ofDelivery, Ruling.carryOut, hres, hs, hsecond]

theorem report_register (w : World) (fresh : Fresh) (req : Request) (port : UInt16)
    (asked : List Call) (g : Gate) :
    report w fresh req (g.follow asked (g.registrar.register w fresh req port)) =
      Ruling.carryOut w g ⟨some (g.registrar.answer w.now fresh req port).1, asked,
        (g.registrar.answer w.now fresh req port).2⟩ := by
  rw [Registrar.register_eq, Registrar.answer]
  cases hi : Intent.ofRequest g.registrar.defaultExpiry port req with
  | error f => exact report_fault (Intent.status_of_ofRequest hi) w fresh req asked _ g
  | ok ui =>
    obtain ⟨user, intent⟩ := ui
    simp only
    cases hf : intent.fulfil w.now user g.registrar.bindings with
    | mk result bs =>
      cases result with
      | ok reg =>
        have hvia := Registrar.get?_via_confirmation fresh req reg
        exact report_delivery w fresh req _ asked bs g hvia
      | error e => exact report_fault rfl w fresh req asked bs g

theorem carryOut_quiet (w : World) (g : Gate) :
    Ruling.carryOut w g ⟨none, [], g.bindings⟩ = g.idle := by
  simp [Ruling.carryOut, idle, withBindings, bindings]

/-- A fault adds a reply to what was done, and takes nothing of it back. -/
theorem report_cases (w : World) (fresh : Fresh) (r : Request) (p : Except Fault Unit × Step) :
    (report w fresh r p).gate = p.2.gate ∧ p.2.sent ⊆ (report w fresh r p).sent := by
  obtain ⟨result, st⟩ := p
  cases result with
  | ok u => exact ⟨rfl, List.Subset.refl _⟩
  | error f =>
    rw [report]
    cases f.status with
    | none => exact ⟨rfl, List.Subset.refl _⟩
    | some code => exact ⟨rfl, List.subset_append_left _ _⟩

theorem report_judge (w : World) (fresh : Fresh) (call : Call) (g : Gate) :
    report w fresh call.request (g.register w fresh call) =
      (g.judge w.now fresh call).carryOut w g := by
  rw [register, judge]
  cases g.policy with
  | unrestricted => exact report_register w fresh call.request call.port [] g
  | ask judge =>
    simp only
    cases judge g.calls call with
    | allow => exact report_register w fresh call.request call.port [_] g
    | deny =>
      have hvia := Registrar.get?_via_challenged fresh call.request g.registrar
      exact report_delivery w fresh call.request _ [_] _ g hvia
    | crash => exact report_fault rfl w fresh call.request [_] _ g

theorem report_dispatch (w : World) (fresh : Fresh) (src : Endpoint) (r : Request) (g : Gate) :
    report w fresh r (g.dispatch w fresh src r) = (g.rule w.now fresh src r).carryOut w g := by
  rw [dispatch, rule]
  split
  · exact report_judge w fresh ⟨r, src.ip.render, src.port⟩ g
  · split
    · exact (carryOut_quiet w g).symm
    · have hstatus : (Fault.unsupported r.method).status = some 501 := rfl
      have hf := report_fault hstatus w fresh r [] g.bindings g
      have hfollow : g.follow [] ⟨.error (.unsupported r.method), [], g.bindings⟩ =
          (.error (.unsupported r.method), g.idle) := by
        simp [follow, idle, withBindings, bindings]
      rwa [hfollow] at hf

/-- A datagram is dropped or ruled on; the ruling is carried out by one delivery. -/
theorem handle_eq (w : World) (fresh : Fresh) (data : Utf8.Octets) (src : Endpoint) (g : Gate) :
    g.handle w fresh data src =
      match read? data src with
      | none => g.idle
      | some r => (g.rule w.now fresh src r).carryOut w g := by
  rw [handle, read?]
  cases Message.parse data with
  | error e => rfl
  | ok m =>
    cases m with
    | response r => rfl
    | request r =>
      simp only
      cases r.stamp src with
      | error f => rfl
      | ok r' => exact report_dispatch w fresh src r' g

theorem read?_eq_some_iff {data : Utf8.Octets} {src : Endpoint} {r : Request} :
    read? data src = some r ↔
      ∃ raw, Message.parse data = .ok (.request raw) ∧ raw.stamp src = .ok r := by
  have hopt (raw : Request) : (raw.stamp src).toOption = some r ↔ raw.stamp src = .ok r := by
    cases raw.stamp src <;> simp [Except.toOption]
  rw [read?]
  cases hm : Message.parse data with
  | error e => simp
  | ok m => cases m <;> simp [hopt]

/-- The policy lets a registration through. -/
def Admits (src : Endpoint) (r : Request) (g : Gate) : Prop :=
  match g.policy with
  | .unrestricted => True
  | .ask judge => judge g.calls ⟨r, src.ip.render, src.port⟩ = .allow

/-- What a ruling can be: the registrar's, for a registration that is admitted, or else a refusal
or, for an ACK, silence. -/
theorem rule_cases (now : Nat) (fresh : Fresh) (src : Endpoint) (r : Request) (g : Gate) :
    (r.method = "REGISTER".toList ∧ g.Admits src r ∧
      (g.rule now fresh src r).reply = some (g.registrar.answer now fresh r src.port).1 ∧
      (g.rule now fresh src r).bindings = (g.registrar.answer now fresh r src.port).2) ∨
    (¬ (r.method = "REGISTER".toList ∧ g.Admits src r) ∧
      (g.rule now fresh src r).bindings = g.bindings ∧
      ((r.method = "ACK".toList ∧ (g.rule now fresh src r).reply = none) ∨
        ∃ resp, (g.rule now fresh src r).reply = some resp ∧ resp.code ≠ 200 ∧
          resp.headers.get? "via".toList = r.headers.get? "via".toList)) := by
  rw [rule]
  by_cases hm : r.method = "REGISTER".toList
  · rw [if_pos hm, judge, Admits]
    cases g.policy with
    | unrestricted => exact Or.inl ⟨hm, trivial, rfl, rfl⟩
    | ask judge =>
      simp only
      cases hj : judge g.calls ⟨r, src.ip.render, src.port⟩ with
      | allow => exact Or.inl ⟨hm, rfl, rfl, rfl⟩
      | deny =>
        refine Or.inr ⟨by simp, rfl, Or.inr ⟨_, rfl, ?_, ?_⟩⟩
        · exact (by decide : (401 : UInt16) ≠ 200)
        · exact Registrar.get?_via_challenged fresh r g.registrar
      | crash =>
        refine Or.inr ⟨by simp, rfl, Or.inr ⟨_, rfl, ?_, ?_⟩⟩
        · exact (by decide : (500 : UInt16) ≠ 200)
        · exact get?_via_reply fresh.tag 500 r
  · rw [if_neg hm]
    refine Or.inr ⟨fun h => hm h.1, ?_⟩
    by_cases hack : r.method = "ACK".toList
    · rw [if_pos hack]
      exact ⟨rfl, Or.inl ⟨hack, rfl⟩⟩
    · rw [if_neg hack]
      refine ⟨rfl, Or.inr ⟨_, rfl, ?_, ?_⟩⟩
      · exact (by decide : (501 : UInt16) ≠ 200)
      · exact get?_via_reply fresh.tag 501 r

theorem get?_via_rule {now : Nat} {fresh : Fresh} {src : Endpoint} {r : Request} {g : Gate}
    {resp : Response} (h : (g.rule now fresh src r).reply = some resp) :
    resp.headers.get? "via".toList = r.headers.get? "via".toList := by
  obtain ⟨-, -, hr, -⟩ | ⟨-, -, ⟨-, hr⟩ | ⟨resp', hr, -, hvia⟩⟩ := rule_cases now fresh src r g
  · rw [hr, Option.some.injEq] at h
    exact h ▸ Registrar.get?_via_answer now fresh r src.port g.registrar
  · rw [hr] at h
    cases h
  · rw [hr, Option.some.injEq] at h
    exact h ▸ hvia

theorem reply_rule {now : Nat} {fresh : Fresh} {src : Endpoint} {r : Request} {g : Gate}
    (hm : r.method ≠ "ACK".toList) : ∃ resp, (g.rule now fresh src r).reply = some resp := by
  obtain ⟨-, -, hr, -⟩ | ⟨-, -, ⟨hack, -⟩ | ⟨resp, hr, -⟩⟩ := rule_cases now fresh src r g
  · exact ⟨_, hr⟩
  · exact absurd hack hm
  · exact ⟨resp, hr⟩

theorem live_rule {now : Nat} {fresh : Fresh} {src : Endpoint} {r : Request} {g : Gate}
    {resp : Response} (hr : (g.rule now fresh src r).reply = some resp) (hc : resp.code ≠ 200) :
    (g.rule now fresh src r).bindings.live now = g.bindings.live now := by
  obtain ⟨-, -, hanswer, hb⟩ | ⟨-, hb, -⟩ := rule_cases now fresh src r g
  · rw [hr, Option.some.injEq] at hanswer
    rw [hb]
    exact Registrar.live_answer (hanswer ▸ hc)
  · rw [hb]

/-- Whatever is sent has a status code, and where that is not 200 the same bindings are live
afterwards as before. -/
theorem live_handle_of_error (w : World) (fresh : Fresh) (data : Utf8.Octets) (src : Endpoint)
    (g : Gate) : ∀ a ∈ (g.handle w fresh data src).sent, (∃ code, a.status? = some code) ∧
      (a.status? ≠ some 200 →
        (g.handle w fresh data src).gate.bindings.live w.now = g.bindings.live w.now) := by
  intro a ha
  rw [handle_eq] at ha ⊢
  cases hread : read? data src with
  | none => simp [hread, idle] at ha
  | some r =>
    simp only [hread] at ha ⊢
    obtain ⟨resp, hr, hsent⟩ := Ruling.mem_sent_carryOut ha
    have hstatus : a.status? = some resp.code := status?_of_mem_deliver hsent
    refine ⟨⟨resp.code, hstatus⟩, ?_⟩
    intro hne
    have hcode : resp.code ≠ 200 := fun hcode => hne (by rw [hstatus, hcode])
    exact live_rule hr hcode

def withBinding : Gate :=
  (ofDomain "d".toList 60 .unrestricted).withBindings
    ⟨"d".toList, [("a".toList, ⟨⟨.sip, none, ⟨"h".toList, none⟩, [], none⟩, second⟩)]⟩

def noUser : Utf8.Octets :=
  Utf8.encode "REGISTER sip:d SIP/2.0\r\nVia: SIP/2.0/UDP 127.0.0.1\r\n\r\n".toList

theorem live_handle_noUser :
    ∃ a ∈ (withBinding.handle ⟨0, true, fun _ => []⟩ .zero noUser ⟨.v4 127 0 0 1, 5060⟩).sent,
      a.status? = some 400 ∧
        (withBinding.handle ⟨0, true, fun _ => []⟩ .zero noUser
          ⟨.v4 127 0 0 1, 5060⟩).gate.bindings.live 0 = withBinding.bindings.live 0 := by
  have hsent : ((withBinding.handle ⟨0, true, fun _ => []⟩ .zero noUser
      ⟨.v4 127 0 0 1, 5060⟩).sent.any fun a => a.status? == some 400) = true := by decide +kernel
  obtain ⟨a, ha, hs⟩ := List.any_eq_true.1 hsent
  have hstatus : a.status? = some 400 := by simpa using hs
  refine ⟨a, ha, hstatus, ?_⟩
  apply (live_handle_of_error ⟨0, true, fun _ => []⟩ .zero noUser ⟨.v4 127 0 0 1, 5060⟩
    withBinding a ha).2
  rw [hstatus]
  decide

end Gate
end SipTestbed
