import SipTestbed.Proofs.Gating
import SipTestbed.Proofs.Injection

/-! Where live bindings come from. Over whole runs of datagrams, direct registrations and time, each
one was asked for by a request of the run, leads to a host and a port, and ends within the longest
time; so no 200 tells a longer one. The invariant is kept with every binding, over or not, and is
about what remains of its time, which only gets less. -/
namespace SipTestbed

open Text (OneLine)

/-- A request for a binding of a user of a domain; a port that its contact lacks may be any. -/
structure Request.Asks (domain user : Text) (contact : Uri) (r : Request) : Prop where
  user : ∃ u, r.Names u ∧ u.userKey = user ∧ Text.sameWord u.host domain = true
  contact : ∃ text a port, r.headers.get? "contact".toList = some text ∧
    Address.parse text = .ok a ∧ contact = Intent.fillPort port a.uri

def Request.AsksOnly (domain : Text) (Wanted : Text → Uri → Prop) (r : Request) : Prop :=
  ∀ user contact, r.Asks domain user contact → Wanted user contact

namespace Request.Asks

variable {domain user : Text} {contact : Uri} {r : Request}

theorem port (h : r.Asks domain user contact) : ∃ p, contact.port = some p := by
  obtain ⟨text, a, port, -, -, rfl⟩ := h.contact
  exact ⟨a.uri.port.getD port, rfl⟩

theorem host (h : r.Asks domain user contact) : contact.host ≠ [] := by
  obtain ⟨text, a, port, -, ha, rfl⟩ := h.contact
  obtain ⟨place, hplace⟩ := Address.uri_of_parse ha
  have hhost : a.uri.host ≠ [] := (Uri.separable_of_parse hplace).host.1
  exact hhost

theorem oneLine (h : r.Asks domain user contact) (hr : r.headers.Unfolded) :
    OneLine contact.render := by
  obtain ⟨text, a, port, hg, ha, rfl⟩ := h.contact
  have htext : OneLine text := Headers.oneLine_of_get? hr hg
  exact Uri.oneLine_render_fillPort (Address.oneLine_uri_of_parse htext ha) port

theorem of_stamp {src : Endpoint} {r' : Request} (hs : r.stamp src = .ok r')
    (h : r'.Asks domain user contact) : r.Asks domain user contact := by
  obtain ⟨u, hn, hu⟩ := h.user
  refine ⟨⟨u, (Request.names_stamp hs u).1 hn, hu⟩, ?_⟩
  have hcontact := h.contact
  rwa [Request.get?_stamp hs (by decide)] at hcontact

end Request.Asks

namespace Bindings

/-- Bindings of a domain, each of them wanted, that end within the longest time from now. -/
structure Granted (domain : Text) (Wanted : Text → Uri → Prop) (now : Nat) (bs : Bindings) :
    Prop where
  domain : bs.domain = domain
  wanted : ∀ e ∈ bs.entries, Wanted e.1 e.2.contact
  deadline : ∀ e ∈ bs.entries, e.2.deadline ≤ now + maxExpiry * second

variable {domain : Text} {Wanted : Text → Uri → Prop} {now : Nat} {bs : Bindings}

theorem granted_empty : (empty domain).Granted domain Wanted now :=
  ⟨rfl, List.forall_mem_nil _, List.forall_mem_nil _⟩

theorem Granted.of_subset (h : bs.Granted domain Wanted now) {bs' : Bindings}
    (hdomain : bs'.domain = bs.domain) (hentries : bs'.entries ⊆ bs.entries) :
    bs'.Granted domain Wanted now :=
  ⟨hdomain.trans h.domain, fun e he => h.wanted e (hentries he),
    fun e he => h.deadline e (hentries he)⟩

theorem Granted.insert (h : bs.Granted domain Wanted now) {user : Text} {contact : Uri}
    (hw : Wanted user contact) {secs : Nat} (hs : secs ≤ maxExpiry) :
    (bs.insert user ⟨contact, now + secs * second⟩).Granted domain Wanted now := by
  have hrest : (bs.erase user).Granted domain Wanted now :=
    h.of_subset rfl (List.filter_subset_self _)
  have htime : now + secs * second ≤ now + maxExpiry * second :=
    Nat.add_le_add_left (Nat.mul_le_mul_right second hs) now
  exact ⟨h.domain, List.forall_mem_cons.2 ⟨hw, hrest.wanted⟩,
    List.forall_mem_cons.2 ⟨htime, hrest.deadline⟩⟩

/-- What is left of a time gets less. -/
theorem Granted.pass (h : bs.Granted domain Wanted now) (time : Nat) :
    bs.Granted domain Wanted (now + time) := by
  refine ⟨h.domain, h.wanted, ?_⟩
  intro e he
  have hdeadline := h.deadline e he
  omega

theorem Granted.seconds_le (h : bs.Granted domain Wanted now) {e : Text × Binding}
    (he : e ∈ bs.entries) : (e.2.deadline - now) / second ≤ maxExpiry := by
  have hdeadline := h.deadline e he
  apply Nat.div_le_of_le_mul
  rw [Nat.mul_comm]
  omega

end Bindings

theorem Request.getAll_reply_of_not_taken {n : Text} (hn : Headers.normalise n ∉ taken)
    (tag : Token 16) (code : UInt16) (r : Request) : (r.reply tag code).headers.getAll n = [] := by
  have hecho : (echoHeaders tag code r.headers).getAll n = [] := by
    rw [Headers.getAll, List.map_eq_nil_iff, List.filter_eq_nil_iff]
    intro e he hname
    exact hn (beq_iff_eq.1 hname ▸ mem_taken he)
  exact hecho

theorem Registrar.getAll_contact_confirmation (fresh : Fresh) (r : Request) (reg : Registration) :
    (confirmation fresh r reg).headers.getAll "contact".toList =
      [['<'] ++ reg.contact.render ++ ['>']] := by
  rw [confirmation, Response.addHeader, Headers.getAll_add, if_neg (by decide), Response.addHeader,
    Headers.getAll_add, if_pos rfl, Request.getAll_reply_of_not_taken (by decide)]
  rfl

theorem Registrar.getAll_expires_confirmation (fresh : Fresh) (r : Request) (reg : Registration) :
    (confirmation fresh r reg).headers.getAll "expires".toList = [Decimal.write reg.seconds] := by
  rw [confirmation, Response.addHeader, Headers.getAll_add, if_pos rfl, Response.addHeader,
    Headers.getAll_add, if_neg (by decide), Request.getAll_reply_of_not_taken (by decide)]
  rfl

/-- A registration that tells a wanted contact and no longer time than the longest. -/
structure Registration.Granted (Wanted : Text → Uri → Prop) (reg : Registration) : Prop where
  wanted : ∃ user, Wanted user reg.contact
  seconds : reg.seconds ≤ maxExpiry

section Requests

variable {domain : Text} {Wanted : Text → Uri → Prop} {now : Nat} {r : Request}

theorem Intent.granted_fulfil {bs : Bindings} (h : bs.Granted domain Wanted now)
    (hr : r.AsksOnly domain Wanted) {default : Nat} {port : UInt16} {user : Uri} {i : Intent}
    (hi : ofRequest default port r = .ok (user, i)) :
    (∀ reg, (i.fulfil now user bs).1 = .ok reg → reg.Granted Wanted) ∧
      (i.fulfil now user bs).2.Granted domain Wanted now := by
  obtain ⟨d, contact, secs, rfl, hserved, hbind⟩ | ⟨hdomain, hentries, hanswer⟩ :=
    fulfil_cases now user bs i
  · obtain ⟨hsecs, hcontact⟩ := bind_of_ofRequest hi
    obtain ⟨text, a, hg, ha, hfill⟩ := hcontact
    have huser : Text.sameWord user.host domain = true := h.domain ▸ hserved
    have hwanted : Wanted user.userKey contact :=
      hr _ _ ⟨⟨user, names_of_ofRequest hi, rfl, huser⟩, ⟨text, a, port, hg, ha, hfill⟩⟩
    have hpruned : (bs.prune now).Granted domain Wanted now :=
      h.of_subset rfl (List.filter_subset_self _)
    rw [hbind]
    refine ⟨?_, hpruned.insert hwanted hsecs⟩
    intro reg hreg
    cases hreg
    exact ⟨⟨_, hwanted⟩, hsecs⟩
  · refine ⟨?_, h.of_subset hdomain hentries⟩
    intro reg hreg
    obtain ⟨e, he, hcontact, hseconds⟩ := hanswer reg hreg
    exact ⟨⟨e.1, hcontact ▸ h.wanted e he⟩, hseconds.trans (h.seconds_le he)⟩

def Request.ConfirmedBy (Wanted : Text → Uri → Prop) (r : Request) (resp : Response) : Prop :=
  ∃ fresh reg, resp = Registrar.confirmation fresh r reg ∧ reg.Granted Wanted

namespace Request.ConfirmedBy

variable {resp : Response}

theorem expires (h : r.ConfirmedBy Wanted resp) :
    ∃ n ≤ maxExpiry, resp.headers.getAll "expires".toList = [Decimal.write n] := by
  obtain ⟨fresh, reg, rfl, hreg⟩ := h
  exact ⟨reg.seconds, hreg.seconds, Registrar.getAll_expires_confirmation fresh r reg⟩

theorem printable (h : r.ConfirmedBy Wanted resp) (hr : r.headers.Unfolded)
    (hw : ∀ user contact, Wanted user contact → OneLine contact.render) : resp.Printable := by
  obtain ⟨fresh, reg, rfl, hreg⟩ := h
  obtain ⟨user, huser⟩ := hreg.wanted
  exact printable_of_repliedBy hr (repliedBy_confirmation fresh (hw user _ huser))

end Request.ConfirmedBy

theorem Registrar.granted_answer {reg : Registrar} (h : reg.bindings.Granted domain Wanted now)
    (hr : r.AsksOnly domain Wanted) (fresh : Fresh) (port : UInt16) :
    ((reg.answer now fresh r port).1.code = 200 →
        r.ConfirmedBy Wanted (reg.answer now fresh r port).1) ∧
      (reg.answer now fresh r port).2.Granted domain Wanted now := by
  rw [answer]
  cases hi : Intent.ofRequest reg.defaultExpiry port r with
  | error f => exact ⟨fun hcode => absurd hcode (by decide : (400 : UInt16) ≠ 200), h⟩
  | ok ui =>
    obtain ⟨user, intent⟩ := ui
    obtain ⟨hgrant, hbs⟩ := Intent.granted_fulfil h hr hi
    simp only
    cases hf : intent.fulfil now user reg.bindings with
    | mk result bs =>
      rw [hf] at hgrant hbs
      cases result with
      | ok grant => exact ⟨fun _ => ⟨fresh, grant, rfl, hgrant grant rfl⟩, hbs⟩
      | error e =>
        have hstatus : e.status ∈ [400, 404, 500, 501] :=
          Intent.status_of_fulfil (congrArg Prod.fst hf)
        have hcode : e.status ≠ 200 := by
          intro h200
          rw [h200] at hstatus
          exact absurd hstatus (by decide)
        exact ⟨fun h200 => absurd h200 hcode, hbs⟩

structure Ruling.Granted (domain : Text) (Wanted : Text → Uri → Prop) (now : Nat) (r : Request)
    (d : Ruling) : Prop where
  reply : ∀ resp, d.reply = some resp → resp.code = 200 → r.ConfirmedBy Wanted resp
  bindings : d.bindings.Granted domain Wanted now

namespace Gate

variable {g : Gate}

theorem granted_refusal (h : g.bindings.Granted domain Wanted now) {resp : Response}
    (hcode : resp.code ≠ 200) (asked : List Call) :
    Ruling.Granted domain Wanted now r ⟨some resp, asked, g.bindings⟩ := by
  refine ⟨?_, h⟩
  intro resp' hreply h200
  cases hreply
  exact absurd h200 hcode

theorem granted_judge (h : g.bindings.Granted domain Wanted now) (call : Call)
    (hr : call.request.AsksOnly domain Wanted) (fresh : Fresh) :
    (g.judge now fresh call).Granted domain Wanted now call.request := by
  obtain ⟨hreply, hbs⟩ := Registrar.granted_answer h hr fresh call.port
  have hanswer (asked : List Call) : Ruling.Granted domain Wanted now call.request
      ⟨some (g.registrar.answer now fresh call.request call.port).1, asked,
        (g.registrar.answer now fresh call.request call.port).2⟩ := by
    refine ⟨?_, hbs⟩
    intro resp hresp
    cases hresp
    exact hreply
  rw [judge]
  cases g.policy with
  | unrestricted => exact hanswer []
  | ask judge =>
    simp only
    cases judge g.calls call with
    | allow => exact hanswer [call]
    | deny => exact granted_refusal h (by decide : (401 : UInt16) ≠ 200) [call]
    | crash => exact granted_refusal h (by decide : (500 : UInt16) ≠ 200) [call]

theorem granted_rule (h : g.bindings.Granted domain Wanted now)
    (hr : r.AsksOnly domain Wanted) (fresh : Fresh) (src : Endpoint) :
    (g.rule now fresh src r).Granted domain Wanted now r := by
  rw [rule]
  split
  · exact granted_judge h ⟨r, src.ip.render, src.port⟩ hr fresh
  · split
    · exact ⟨by simp, h⟩
    · exact granted_refusal h (by decide : (501 : UInt16) ≠ 200) []

end Gate
end Requests

def Message.request? (data : Utf8.Octets) : Option Request :=
  match parse data with
  | .ok (.request r) => some r
  | _ => none

/-- The request that an action brings before the gate. -/
def Action.request? : Action → Option Request
  | .arrive data _ => Message.request? (data.take maxDatagram)
  | .handle data _ => Message.request? data
  | .register call => some call.request
  | _ => none

/-- Header values stand on one line each; those of datagrams always do. -/
def Action.Unfolded : Action → Prop
  | .register call => call.request.headers.Unfolded
  | _ => True

def Attempt.Confirms (Wanted : Text → Uri → Prop) (r : Request) (t : Attempt) : Prop :=
  ∃ resp, t.data = resp.encode ∧ r.ConfirmedBy Wanted resp

structure Gate.Step.Granted (domain : Text) (Wanted : Text → Uri → Prop) (now : Nat)
    (Answered : Request → Prop) (st : Gate.Step) : Prop where
  bindings : st.gate.bindings.Granted domain Wanted now
  sent : ∀ t ∈ st.sent, t.status? = some 200 → ∃ r, Answered r ∧ t.Confirms Wanted r

theorem Message.request?_eq_some_iff {data : Utf8.Octets} {r : Request} :
    request? data = some r ↔ parse data = .ok (.request r) := by
  rw [request?]
  cases parse data with
  | error e => simp
  | ok m => cases m <;> simp

theorem Action.unfolded_of_request? {a : Action} (ha : a.Unfolded) {r : Request}
    (h : a.request? = some r) : r.headers.Unfolded := by
  cases a with
  | arrive data src => exact Message.unfolded_of_parse (Message.request?_eq_some_iff.1 h)
  | handle data src => exact Message.unfolded_of_parse (Message.request?_eq_some_iff.1 h)
  | register call => exact Option.some.inj h ▸ ha
  | _ => cases h

section Steps

variable {domain : Text} {Wanted : Text → Uri → Prop}

theorem Ruling.granted_carryOut {now : Nat} {r : Request} {d : Ruling}
    (h : d.Granted domain Wanted now r) (w : World) (g : Gate) :
    (d.carryOut w g).Granted domain Wanted now (· = r) := by
  refine ⟨h.bindings, ?_⟩
  intro t ht h200
  obtain ⟨resp, hreply, hsent⟩ := mem_sent_carryOut ht
  have hcode : resp.code = 200 := by
    rw [status?_of_mem_deliver hsent, Option.some.injEq] at h200
    exact h200
  have hdata : t.data = resp.encode := by rw [(mem_sent_deliver hsent).2]
  exact ⟨r, rfl, resp, hdata, h.reply resp hreply hcode⟩

theorem Gate.granted_handle {g : Gate} {w : World} (h : g.bindings.Granted domain Wanted w.now)
    {data : Utf8.Octets} (hr : ∀ r, Message.request? data = some r → r.AsksOnly domain Wanted)
    (fresh : Fresh) (src : Endpoint) :
    (g.handle w fresh data src).Granted domain Wanted w.now (·.headers.Unfolded) := by
  rw [handle_eq]
  cases hread : read? data src with
  | none => exact ⟨h, by simp [idle]⟩
  | some r =>
    obtain ⟨raw, hraw, hstamp⟩ := read?_eq_some_iff.1 hread
    have hasks : r.AsksOnly domain Wanted := by
      intro user contact ha
      exact hr raw (Message.request?_eq_some_iff.2 hraw) user contact (ha.of_stamp hstamp)
    have hstep := Ruling.granted_carryOut (granted_rule h hasks fresh src) w g
    refine ⟨hstep.bindings, ?_⟩
    intro t ht h200
    obtain ⟨r', rfl, hconfirms⟩ := hstep.sent t ht h200
    exact ⟨r', unfolded_of_read? hread, hconfirms⟩

theorem Gate.granted_register {g : Gate} {w : World} (h : g.bindings.Granted domain Wanted w.now)
    {call : Call} (hr : call.request.AsksOnly domain Wanted) (fresh : Fresh) :
    (g.register w fresh call).2.Granted domain Wanted w.now (· = call.request) := by
  have hstep := Ruling.granted_carryOut (granted_judge h call hr fresh) w g
  obtain ⟨hgate, hsent⟩ := report_cases w fresh call.request (g.register w fresh call)
  rw [report_judge] at hgate hsent
  exact ⟨hgate ▸ hstep.bindings, fun t ht => hstep.sent t (hsent ht)⟩

end Steps

namespace Session

variable {domain : Text} {Wanted : Text → Uri → Prop}

/-- An action that binds and confirms what is wanted, if anything. -/
structure GrantedBy (domain : Text) (Wanted : Text → Uri → Prop) (a : Action)
    (p : Report × Session) : Prop where
  bindings : p.2.bindings.Granted domain Wanted p.2.world.now
  sent : ∀ t ∈ p.1.sent, t.status? = some 200 →
    ∃ r, (a.Unfolded → r.headers.Unfolded) ∧ t.Confirms Wanted r

theorem grantedBy_quiet {s : Session} (h : s.bindings.Granted domain Wanted s.world.now)
    (a : Action) (result : Action.Result) : GrantedBy domain Wanted a (quiet result s) :=
  ⟨h, by simp [quiet]⟩

theorem grantedBy_ofStep {s : Session} {a : Action} {Answered : Request → Prop} {st : Gate.Step}
    (h : st.Granted domain Wanted s.world.now Answered)
    (hr : ∀ r, Answered r → a.Unfolded → r.headers.Unfolded) (result : Action.Result) :
    GrantedBy domain Wanted a (ofStep result st s) := by
  refine ⟨h.bindings, ?_⟩
  intro t ht h200
  obtain ⟨r, hans, hconfirms⟩ := h.sent t ht h200
  exact ⟨r, hr r hans, hconfirms⟩

theorem granted_act {s : Session} (hs : s.bindings.Granted domain Wanted s.world.now) {a : Action}
    (ha : a.Guarded) (hw : ∀ r, a.request? = some r → r.AsksOnly domain Wanted) (fresh : Fresh) :
    GrantedBy domain Wanted a (s.act fresh a) := by
  cases a with
  | arrive data src =>
    rw [act]
    split
    · simp only [Buffer.take_write]
      exact grantedBy_ofStep (s := { s with buffer := s.buffer.write data })
        (Gate.granted_handle hs hw fresh src) (fun _ hr _ => hr) .done
    · exact grantedBy_quiet hs _ .done
  | handle data src =>
    exact grantedBy_ofStep (Gate.granted_handle hs hw fresh src) (fun _ hr _ => hr) .done
  | register call =>
    have hcall := Gate.granted_register hs (hw call.request rfl) fresh
    have hlines (r : Request) (hr : r = call.request) (hu : (Action.register call).Unfolded) :
        r.headers.Unfolded := hr ▸ hu
    exact grantedBy_ofStep hcall hlines _
  | bindings op => exact absurd ha id
  | receiveError => exact grantedBy_quiet (s := { s with listening := false }) hs _ .done
  | domain => exact grantedBy_quiet hs _ _
  | advance time =>
    exact grantedBy_quiet (s := { s with world := { s.world with now := s.world.now + time } })
      (hs.pass time) _ .done
  | network up =>
    exact grantedBy_quiet (s := { s with world := { s.world with networkUp := up } }) hs _ .done

theorem granted_after {s : Session} (hs : s.bindings.Granted domain Wanted s.world.now)
    {as : List (Fresh × Action)} (has : ∀ a ∈ as, a.2.Guarded)
    (hw : ∀ a ∈ as, ∀ r, a.2.request? = some r → r.AsksOnly domain Wanted) :
    (s.after as).bindings.Granted domain Wanted (s.after as).world.now := by
  induction as generalizing s with
  | nil => exact hs
  | cons a as ih =>
    obtain ⟨ha, hrest⟩ := List.forall_mem_cons.1 has
    obtain ⟨hwa, hwrest⟩ := List.forall_mem_cons.1 hw
    exact ih (granted_act hs ha hwa a.1).bindings hrest hwrest

/-- What the requests of some actions ask for. -/
def AskedIn (domain : Text) (as : List (Fresh × Action)) (user : Text) (contact : Uri) : Prop :=
  ∃ a ∈ as, ∃ r, a.2.request? = some r ∧ r.Asks domain user contact

theorem AskedIn.oneLine {as : List (Fresh × Action)} (has : ∀ a ∈ as, a.2.Unfolded) {user : Text}
    {contact : Uri} (h : AskedIn domain as user contact) : OneLine contact.render := by
  obtain ⟨a, ha, r, hr, hasks⟩ := h
  exact hasks.oneLine (Action.unfolded_of_request? (has a ha) hr)

/-- After any run of datagrams, direct registrations and time from an empty registrar, whatever the
policy: a live binding leads to a host and a port, is for a user of the domain that a request of
the run names, and ends after now and within the longest time. A 200 to one more action has one
Expires value, a number of seconds within the longest time, and is read with that value unless
direct registrations bring values of several lines. -/
theorem live_granted (names : Text → List IpAddr) (domain : Text) (defaultExpiry : Nat)
    (policy : Policy) {as : List (Fresh × Action)} (has : ∀ a ∈ as, a.2.Guarded) :
    let s := (start names (.ofDomain domain defaultExpiry policy)).after as
    (∀ e ∈ s.bindings.live s.world.now,
      (∃ port, e.2.contact.port = some port) ∧
      e.2.contact.scheme.render ∈ ["sip".toList, "sips".toList] ∧
      e.2.contact.host ≠ [] ∧
      (∃ a ∈ as, ∃ r u, a.2.request? = some r ∧ r.Names u ∧ u.userKey = e.1 ∧
        Text.sameWord u.host domain = true) ∧
      s.world.now < e.2.deadline ∧ e.2.deadline ≤ s.world.now + 4294967295 * second) ∧
    ∀ fresh a, a.Guarded → ∀ t ∈ (s.act fresh a).1.sent, t.status? = some 200 →
      ∃ (resp : Response) (n : Nat), t.data = resp.encode ∧
        resp.headers.getAll "expires".toList = [Decimal.write n] ∧ n ≤ 4294967295 ∧
        ((∀ b ∈ as, b.2.Unfolded) → a.Unfolded →
          ∃ back, Message.parse t.data = .ok (.response back) ∧
            back.headers.getAll "expires".toList = [Decimal.write n]) := by
  intro s
  have hgranted {more : List (Fresh × Action)} (hmore : as ⊆ more) :
      s.bindings.Granted domain (AskedIn domain more) s.world.now := by
    apply granted_after Bindings.granted_empty has
    intro a ha r hr user contact hasks
    exact ⟨a, hmore ha, r, hr, hasks⟩
  constructor
  · intro e he
    have hkept := hgranted (List.Subset.refl as)
    obtain ⟨hmem, hlive⟩ := List.mem_filter.1 he
    obtain ⟨a, ha, r, hr, hasks⟩ := hkept.wanted e hmem
    obtain ⟨u, hnames, hkey, hhost⟩ := hasks.user
    have hscheme : e.2.contact.scheme.render ∈ ["sip".toList, "sips".toList] := by
      cases e.2.contact.scheme <;> decide
    exact ⟨hasks.port, hscheme, hasks.host, ⟨a, ha, r, u, hr, hnames, hkey, hhost⟩,
      of_decide_eq_true hlive, hkept.deadline e hmem⟩
  · intro fresh a ha t ht h200
    have hmore : as ⊆ (fresh, a) :: as := List.subset_cons_self _ _
    have hasked : ∀ r, a.request? = some r →
        r.AsksOnly domain (AskedIn domain ((fresh, a) :: as)) :=
      fun r hr user contact hasks => ⟨(fresh, a), List.mem_cons_self, r, hr, hasks⟩
    obtain ⟨r, hunfolded, resp, hdata, hconfirmed⟩ :=
      (granted_act (hgranted hmore) ha hasked fresh).sent t ht h200
    obtain ⟨n, hn, hexpires⟩ := hconfirmed.expires
    refine ⟨resp, n, hdata, hexpires, hn, ?_⟩
    intro hlines hline
    have hcontact : ∀ user contact, AskedIn domain ((fresh, a) :: as) user contact →
        OneLine contact.render :=
      fun user contact hc => hc.oneLine (List.forall_mem_cons.2 ⟨hline, hlines⟩)
    have hprintable : resp.Printable := hconfirmed.printable (hunfolded hline) hcontact
    refine ⟨resp.reread, hdata ▸ Message.parse_encode hprintable, ?_⟩
    rw [Response.getAll_reread, if_neg (by decide), hexpires, List.map_singleton,
      Decimal.trim_write]

theorem live_granted_alice :
    let s := (start (fun _ => []) (.ofDomain "d".toList 60 .unrestricted)).after bindAlice
    (∃ e ∈ s.bindings.live s.world.now, e.1 = "alice".toList ∧
      e.2.contact.port = some 5060 ∧ e.2.contact.host ≠ [] ∧
      s.world.now < e.2.deadline ∧ e.2.deadline ≤ s.world.now + 4294967295 * second) ∧
    ∃ t ∈ (s.act .zero (.handle (forAlice "") ⟨.v4 127 0 0 1, 5060⟩)).1.sent,
      ∃ back n, Message.parse t.data = .ok (.response back) ∧
        back.headers.getAll "expires".toList = [Decimal.write n] ∧ n ≤ 4294967295 := by
  intro s
  have hguarded : ∀ a ∈ bindAlice, a.2.Guarded := by simp [bindAlice, Action.Guarded]
  have hunfolded : ∀ a ∈ bindAlice, a.2.Unfolded := by simp [bindAlice, Action.Unfolded]
  obtain ⟨hlive, hsent⟩ :=
    live_granted (fun _ => []) "d".toList 60 .unrestricted hguarded
  have hbound : (s.bindings.live s.world.now).any (fun e =>
      e.1 == "alice".toList && e.2.contact.port == some 5060) = true := by decide +kernel
  have hanswer : (s.act .zero (.handle (forAlice "") ⟨.v4 127 0 0 1, 5060⟩)).1.sent.any
      (fun t => t.status? == some 200) = true := by decide +kernel
  obtain ⟨e, he, hport⟩ := List.any_eq_true.1 hbound
  obtain ⟨t, ht, h200⟩ := List.any_eq_true.1 hanswer
  simp only [Bool.and_eq_true, beq_iff_eq] at hport h200
  obtain ⟨-, -, hhost, -, htime⟩ := hlive e he
  obtain ⟨resp, n, -, -, hn, hread⟩ := hsent .zero (.handle (forAlice "") ⟨.v4 127 0 0 1, 5060⟩)
    trivial t ht h200
  obtain ⟨back, hback, hexpires⟩ := hread hunfolded trivial
  exact ⟨⟨e, he, hport.1, hport.2, hhost, htime⟩, t, ht, back, n, hback, hexpires, hn⟩

end Session
end SipTestbed
