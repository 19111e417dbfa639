import SipTestbed.Proofs.Ruling

/-! How much the Expires header is read by its value. Without a contact it is only compared with the
text `0`, and that text is also looked for before a contact is; everywhere else it is read as a
number. So another spelling of zero is overlooked where there is no good contact, and a text that is
no number is passed over where there is none at all. -/
namespace SipTestbed

/-- Requests that agree in what a registrar reads of them, but for Expires. -/
structure Request.AlikeButExpires (r r' : Request) : Prop where
  uri : r.uri = r'.uri
  values : ∀ n, Headers.normalise n ≠ "expires".toList → r.headers.getAll n = r'.headers.getAll n

def Intent.expires? (r : Request) : Option Nat := (expiresText? r).bind Decimal.readU64?

/-- The Expires header is zero in its shortest spelling. -/
def Request.SaysZero (r : Request) : Prop := Intent.expiresText? r = some ['0']

instance (r : Request) : Decidable r.SaysZero :=
  inferInstanceAs (Decidable (Intent.expiresText? r = some ['0']))

theorem echoHeaders_congr (tag : Token 16) (code : UInt16) {hs hs' : Headers}
    (hto : hs.get? "to".toList = hs'.get? "to".toList)
    (h : ∀ n ∈ copied, hs.getAll n = hs'.getAll n) :
    echoHeaders tag code hs = echoHeaders tag code hs' := by
  have hvia := h "via".toList (by decide)
  have hfrom := h "from".toList (by decide)
  have hcall := h "call-id".toList (by decide)
  have hcseq := h "cseq".toList (by decide)
  have hentries : (echoHeaders tag code hs).entries = (echoHeaders tag code hs').entries := by
    rw [entries_echoHeaders, entries_echoHeaders, hto, hvia, hfrom, hcall, hcseq]
  exact congrArg Headers.mk hentries

namespace Request.AlikeButExpires

variable {r r' : Request}

theorem symm (h : r.AlikeButExpires r') : r'.AlikeButExpires r :=
  ⟨h.uri.symm, fun n hn => (h.values n hn).symm⟩

theorem get? (h : r.AlikeButExpires r') {n : Text} (hn : Headers.normalise n ≠ "expires".toList) :
    r.headers.get? n = r'.headers.get? n := by
  rw [Headers.get?_eq_head?, Headers.get?_eq_head?, h.values n hn]

theorem names_iff (h : r.AlikeButExpires r') (user : Uri) : r.Names user ↔ r'.Names user := by
  rw [Names, Names, h.get? (by decide)]

theorem reply_eq (h : r.AlikeButExpires r') (tag : Token 16) (code : UInt16) :
    r.reply tag code = r'.reply tag code := by
  have happart : ∀ n ∈ copied, Headers.normalise n ≠ "expires".toList := by decide
  rw [reply, reply, echoHeaders_congr tag code (h.get? (by decide))
    fun n hn => h.values n (happart n hn)]

theorem confirm_eq (h : r.AlikeButExpires r') (w : World) (fresh : Fresh)
    (p : Except BindingError Registration × Bindings) :
    Registrar.confirm w fresh r p = Registrar.confirm w fresh r' p := by
  obtain ⟨result, bs⟩ := p
  cases result with
  | error e => rfl
  | ok reg =>
    rw [Registrar.confirm, Registrar.confirm, Registrar.confirmation, Registrar.confirmation,
      h.reply_eq]

end Request.AlikeButExpires

namespace Intent

theorem seconds_of_expires? {r : Request} {n : Nat} (h : expires? r = some n) (default : Nat)
    (a : Address) : seconds default (expiresText? r) a = .ok (min n maxExpiry) := by
  obtain ⟨v, hv, hn⟩ := Option.bind_eq_some_iff.1 h
  simp only [hv, seconds, hn]

theorem ofContact_congr {r r' : Request} (h : r.AlikeButExpires r') {n : Nat}
    (hn : expires? r = some n) (hn' : expires? r' = some n) (default : Nat) (port : UInt16)
    (text : Text) : ofContact default port r text = ofContact default port r' text := by
  rw [ofContact_eq, ofContact_eq, h.uri]
  simp only [seconds_of_expires? hn, seconds_of_expires? hn']

theorem ofRequest_congr {r r' : Request} (h : r.AlikeButExpires r') {n : Nat}
    (hn : expires? r = some n) (hn' : expires? r' = some n) (hzero : r.SaysZero ↔ r'.SaysZero)
    (default : Nat) (port : UInt16) : ofRequest default port r = ofRequest default port r' := by
  have hif {α : Type} (a b : α) : (if expiresText? r = some ['0'] then a else b) =
      if expiresText? r' = some ['0'] then a else b := if_congr hzero rfl rfl
  rw [ofRequest_eq, ofRequest_eq, h.get? (n := "to".toList) (by decide),
    h.get? (n := "contact".toList) (by decide)]
  simp only [hif, ofContact_congr h hn hn']

theorem ofRequest_of_saysZero {r : Request} {user : Uri} (hn : r.Names user) (hz : r.SaysZero)
    (default : Nat) (port : UInt16) : ofRequest default port r = .ok (user, .remove) :=
  ofRequest_eq_remove_iff.2 ⟨hn, Or.inl hz⟩

theorem ofRequest_of_not_saysZero {r : Request} {user : Uri} (hn : r.Names user)
    (hz : ¬ r.SaysZero) (default : Nat) (port : UInt16) :
    ofRequest default port r = match r.headers.get? "contact".toList with
      | some text => (ofContact default port r text).map fun i => (user, i)
      | none => .ok (user, .query) := by
  have htext : ¬ expiresText? r = some ['0'] := hz
  exact (ofRequest_of_names hn).trans (if_neg htext)

theorem expires?_of_saysZero {r : Request} (h : r.SaysZero) : expires? r = some 0 := by
  have htext : expiresText? r = some ['0'] := h
  rw [expires?, htext]
  decide

theorem exists_error_of_no_expires {r : Request} (htext : expiresText? r ≠ none)
    (hno : expires? r = none) (default : Nat) (port : UInt16) (text : Text) :
    ∃ f, ofContact default port r text = .error f ∧ f.status = some 400 := by
  obtain ⟨v, hv⟩ := Option.ne_none_iff_exists'.1 htext
  have hread : Decimal.readU64? v = none := by rwa [expires?, hv] at hno
  have herror : ∃ f, ofContact default port r text = .error f := by
    rw [ofContact_eq]
    cases Address.parse text with
    | error e => exact ⟨_, rfl⟩
    | ok a => exact ⟨.invalidExpires v, by simp only [hv, seconds, hread]⟩
  obtain ⟨f, hf⟩ := herror
  exact ⟨f, hf, status_of_ofContact hf⟩

theorem ofRequest_of_no_name {r r' : Request} (h : r.AlikeButExpires r')
    (hno : ∀ user, ¬ r.Names user) (default : Nat) (port : UInt16) :
    ofRequest default port r = ofRequest default port r' := by
  rw [ofRequest_eq, ofRequest_eq, ← h.get? (n := "to".toList) (by decide)]
  cases hg : r.headers.get? "to".toList with
  | none => rfl
  | some text =>
    cases ha : Address.parse text with
    | error e => simp only [ha]
    | ok a => exact absurd ⟨text, a, hg, ha, rfl⟩ (hno a.uri)

end Intent

namespace Registrar

/-- Outcomes with the same bindings live and the same response attempted: here, or by the caller
with the status of the fault. -/
structure Outcome.Same (now : Nat) (o o' : Outcome) : Prop where
  sent : o.sent = o'.sent
  status : o.result.mapError Fault.status = o'.result.mapError Fault.status
  live : o.bindings.live now = o'.bindings.live now

theorem Outcome.same_comm {now : Nat} {o o' : Outcome} : o.Same now o' ↔ o'.Same now o :=
  ⟨fun h => ⟨h.sent.symm, h.status.symm, h.live.symm⟩,
    fun h => ⟨h.sent.symm, h.status.symm, h.live.symm⟩⟩

theorem Outcome.Same.of_eq {now : Nat} {o o' : Outcome} (h : o = o') : o.Same now o' :=
  h ▸ ⟨rfl, rfl, rfl⟩

theorem bindings_confirm (w : World) (fresh : Fresh) (req : Request)
    (p : Except BindingError Registration × Bindings) :
    (confirm w fresh req p).bindings = p.2 := by
  obtain ⟨result, bs⟩ := p
  cases result <;> rfl

variable {reg : Registrar} {w : World} {fresh : Fresh} {port : UInt16} {r r' : Request} {user : Uri}

theorem register_congr (h : r.AlikeButExpires r')
    (hi : Intent.ofRequest reg.defaultExpiry port r = Intent.ofRequest reg.defaultExpiry port r') :
    reg.register w fresh r port = reg.register w fresh r' port := by
  rw [register_eq, register_eq, hi]
  cases Intent.ofRequest reg.defaultExpiry port r' with
  | error f => rfl
  | ok ui => exact h.confirm_eq w fresh _

theorem register_of_saysZero (hn : r.Names user) (hz : r.SaysZero) :
    reg.register w fresh r port = confirm w fresh r (reg.bindings.unregister w.now user) := by
  rw [register_eq, Intent.ofRequest_of_saysZero hn hz]
  rfl

theorem register_of_query (hn : r.Names user) (hz : ¬ r.SaysZero)
    (hc : r.headers.get? "contact".toList = none) :
    reg.register w fresh r port = confirm w fresh r (reg.bindings.lookup w.now user) := by
  rw [register_eq, Intent.ofRequest_of_not_saysZero hn hz, hc]
  rfl

theorem register_of_zero (hn : r.Names user) (hzero : Intent.expires? r = some 0) {text : Text}
    (hc : r.headers.get? "contact".toList = some text) {a : Address}
    (ha : Address.parse text = .ok a) :
    reg.register w fresh r port = confirm w fresh r (reg.bindings.unregister w.now user) := by
  have hasks : r.AsksRemoval reg.defaultExpiry :=
    Or.inr ⟨text, a, hc, ha, Intent.seconds_of_expires? hzero _ a⟩
  rw [register_eq, Intent.ofRequest_eq_remove_iff.2 ⟨hn, hasks⟩]
  rfl

theorem register_of_contact_error (hn : r.Names user) (hz : ¬ r.SaysZero) {text : Text}
    (hc : r.headers.get? "contact".toList = some text) {f : Fault}
    (hf : Intent.ofContact reg.defaultExpiry port r text = .error f) :
    reg.register w fresh r port = ⟨.error f, [], reg.bindings⟩ := by
  rw [register_eq, Intent.ofRequest_of_not_saysZero hn hz, hc]
  simp only [hf, Except.map]

/-- A removal that has to be spelled in the shortest way: of a binding that is there, by a request
without a contact, or of any binding, by a request whose contact is no address. -/
def Overlooks (now : Nat) (r : Request) (reg : Registrar) : Prop :=
  ∃ user, r.Names user ∧
    match r.headers.get? "contact".toList with
    | none => reg.bindings.live? now user.userKey ≠ none
    | some text => ∃ e, Address.parse text = .error e

theorem overlooks_congr (h : r.AlikeButExpires r') (now : Nat) :
    reg.Overlooks now r ↔ reg.Overlooks now r' := by
  rw [Overlooks, Overlooks, h.get? (by decide)]
  simp only [h.names_iff]

theorem same_confirm_errors {now : Nat} {p p' : Except BindingError Registration × Bindings}
    {e e' : BindingError} (hp : p.1 = .error e) (hp' : p'.1 = .error e')
    (hstatus : e.status = e'.status) (hlive : p.2.live now = p'.2.live now) :
    (confirm w fresh r p).Same now (confirm w fresh r p') := by
  obtain ⟨result, bs⟩ := p
  obtain ⟨result', bs'⟩ := p'
  cases hp
  cases hp'
  refine ⟨rfl, ?_, hlive⟩
  simp only [confirm, Except.mapError, Fault.status, hstatus]

theorem same_query_iff : (confirm w fresh r (reg.bindings.unregister w.now user)).Same w.now
    (confirm w fresh r (reg.bindings.lookup w.now user)) ↔
      reg.bindings.live? w.now user.userKey = none := by
  have hlookup := Bindings.live_lookup w.now user reg.bindings
  constructor
  · intro hsame
    have hlive := hsame.live
    rw [bindings_confirm, bindings_confirm, Bindings.live_unregister, hlookup] at hlive
    exact Bindings.filter_live_eq_self_iff.1 hlive
  · intro hnone
    have hremoval := Bindings.unregister_of_none hnone
    obtain ⟨e, he, hquery⟩ := Bindings.lookup_of_none hnone
    have hlive := (Bindings.live_unregister_of_error hremoval).trans hlookup.symm
    exact same_confirm_errors hremoval hquery he.symm hlive

theorem not_same_refusal {f : Fault} (hf : f.status = some 400) :
    ¬ (confirm w fresh r (reg.bindings.unregister w.now user)).Same w.now
      ⟨.error f, [], reg.bindings⟩ := by
  intro hsame
  have hlive := hsame.live
  rw [bindings_confirm, Bindings.live_unregister, Bindings.filter_live_eq_self_iff] at hlive
  have hremoval := Bindings.unregister_of_none hlive
  have hstatus := hsame.status
  cases hp : reg.bindings.unregister w.now user with
  | mk result bs =>
    rw [hp] at hremoval hstatus
    cases hremoval
    have hcodes : some 404 = f.status := Except.error.inj hstatus
    rw [hf, Option.some.injEq] at hcodes
    exact absurd hcodes (by decide)

/-- The shortest zero against another one. -/
theorem same_zero_iff (h : r.AlikeButExpires r') (hz : r.SaysZero) (hz' : ¬ r'.SaysZero)
    (hzero : Intent.expires? r' = some 0) :
    (reg.register w fresh r port).Same w.now (reg.register w fresh r' port) ↔
      ¬ reg.Overlooks w.now r' := by
  by_cases hnames : ∃ user, r'.Names user
  · obtain ⟨user, hn⟩ := hnames
    have hoverlooks : reg.Overlooks w.now r' ↔ match r'.headers.get? "contact".toList with
        | none => reg.bindings.live? w.now user.userKey ≠ none
        | some text => ∃ e, Address.parse text = .error e := by
      constructor
      · intro hover
        obtain ⟨user', hn', hover⟩ := hover
        rwa [Request.names_unique hn hn']
      · exact fun hover => ⟨user, hn, hover⟩
    rw [hoverlooks, register_of_saysZero ((h.names_iff user).2 hn) hz, h.confirm_eq]
    cases hc : r'.headers.get? "contact".toList with
    | none => simpa only [register_of_query hn hz' hc, not_not] using same_query_iff
    | some text =>
      cases ha : Address.parse text with
      | error e =>
        have hf : Intent.ofContact reg.defaultExpiry port r' text = .error (.malformed e) := by
          rw [Intent.ofContact_eq, ha]
        rw [register_of_contact_error hn hz' hc hf]
        exact iff_of_false (not_same_refusal rfl) (not_not.2 ⟨e, ha⟩)
      | ok a =>
        rw [register_of_zero hn hzero hc ha]
        refine iff_of_true (.of_eq rfl) ?_
        intro herror
        obtain ⟨e, he⟩ := herror
        rw [ha] at he
        cases he
  · have hno : ∀ user, ¬ r.Names user :=
      fun user hn => hnames ⟨user, (h.names_iff user).1 hn⟩
    have hnot : ¬ reg.Overlooks w.now r' := by
      intro hover
      obtain ⟨user, hn, -⟩ := hover
      exact hnames ⟨user, hn⟩
    have heq : reg.register w fresh r port = reg.register w fresh r' port :=
      register_congr h (Intent.ofRequest_of_no_name h hno _ _)
    simp only [hnot, not_false_eq_true, iff_true]
    exact .of_eq heq

theorem same_register_iff (h : r.AlikeButExpires r') {n : Nat} (hn : Intent.expires? r = some n)
    (hn' : Intent.expires? r' = some n) :
    (reg.register w fresh r port).Same w.now (reg.register w fresh r' port) ↔
      ((r.SaysZero ↔ r'.SaysZero) ∨ ¬ reg.Overlooks w.now r) := by
  have hsame (hzero : r.SaysZero ↔ r'.SaysZero) :
      (reg.register w fresh r port).Same w.now (reg.register w fresh r' port) :=
    .of_eq (register_congr h (Intent.ofRequest_congr h hn hn' hzero _ _))
  by_cases hz : r.SaysZero
  · have hzero : some n = some 0 := hn.symm.trans (Intent.expires?_of_saysZero hz)
    by_cases hz' : r'.SaysZero
    · have hboth : r.SaysZero ↔ r'.SaysZero := iff_of_true hz hz'
      exact iff_of_true (hsame hboth) (Or.inl hboth)
    · rw [same_zero_iff h hz hz' (hn'.trans hzero), overlooks_congr h]
      simp [hz, hz']
  · by_cases hz' : r'.SaysZero
    · have hzero : some n = some 0 := hn'.symm.trans (Intent.expires?_of_saysZero hz')
      have hother : (reg.register w fresh r' port).Same w.now (reg.register w fresh r port) ↔
          ¬ reg.Overlooks w.now r := same_zero_iff h.symm hz' hz (hn.trans hzero)
      rw [Outcome.same_comm, hother]
      simp [hz, hz']
    · have hneither : r.SaysZero ↔ r'.SaysZero := iff_of_false hz hz'
      exact iff_of_true (hsame hneither) (Or.inl hneither)

theorem register_of_no_expires (hn : r.Names user) (htext : Intent.expiresText? r ≠ none)
    (hno : Intent.expires? r = none) :
    (reg.register w fresh r port).bindings.live w.now = reg.bindings.live w.now ∧
      match r.headers.get? "contact".toList with
      | none => reg.register w fresh r port = confirm w fresh r (reg.bindings.lookup w.now user)
      | some _ => (reg.register w fresh r port).sent = [] ∧
          ∃ f, (reg.register w fresh r port).result = .error f ∧ f.status = some 400 := by
  have hz : ¬ r.SaysZero := by
    intro hz
    rw [Intent.expires?_of_saysZero hz] at hno
    cases hno
  cases hc : r.headers.get? "contact".toList with
  | none =>
    rw [register_of_query hn hz hc, bindings_confirm]
    exact ⟨Bindings.live_lookup w.now user reg.bindings, rfl⟩
  | some text =>
    obtain ⟨f, hf, hstatus⟩ :=
      Intent.exists_error_of_no_expires htext hno reg.defaultExpiry port text
    rw [register_of_contact_error hn hz hc hf]
    exact ⟨rfl, rfl, f, rfl, hstatus⟩

/-- Two spellings of a time have the same outcome, unless just one of them is the shortest zero and
it stands for a removal that has to be spelled so. A time that is no number changes nothing; it is
refused where there is a contact, and passed over where there is none. -/
theorem register_expires (w : World) (fresh : Fresh) (r : Request) (port : UInt16)
    (reg : Registrar) :
    (∀ r' n, r.AlikeButExpires r' → Intent.expires? r = some n → Intent.expires? r' = some n →
      ((reg.register w fresh r port).Same w.now (reg.register w fresh r' port) ↔
        ((r.SaysZero ↔ r'.SaysZero) ∨ ¬ reg.Overlooks w.now r))) ∧
    (∀ user, r.Names user → Intent.expiresText? r ≠ none → Intent.expires? r = none →
      (reg.register w fresh r port).bindings.live w.now = reg.bindings.live w.now ∧
        match r.headers.get? "contact".toList with
        | none => reg.register w fresh r port =
            confirm w fresh r (reg.bindings.lookup w.now user)
        | some _ => (reg.register w fresh r port).sent = [] ∧
            ∃ f, (reg.register w fresh r port).result = .error f ∧ f.status = some 400) := by
  constructor
  · intro r' n h hn hn'
    exact same_register_iff h hn hn'
  · intro user hn htext hno
    exact register_of_no_expires hn htext hno

def saying (expires : Text) (fields : List (Text × Text)) : Request :=
  ⟨"REGISTER".toList, "sip:d".toList, .ofList (("expires".toList, expires) :: fields), []⟩

theorem saying_alike (x y : Text) (fields : List (Text × Text)) :
    (saying x fields).AlikeButExpires (saying y fields) := by
  refine ⟨rfl, ?_⟩
  intro n hn
  have hname : Headers.normalise "expires".toList = "expires".toList := by decide
  have hrest (v : Text) :
      (saying v fields).headers.getAll n = (Headers.ofList fields).getAll n := by
    have hheaders : (saying v fields).headers = .ofList (("expires".toList, v) :: fields) := rfl
    have hno : ("expires".toList == Headers.normalise n) = false := beq_eq_false_iff_ne.2 hn.symm
    simp only [hheaders, Headers.getAll, Headers.entries_ofList, List.map_cons, List.filter_cons,
      hname, hno, Bool.false_eq_true, if_false]
  rw [hrest, hrest]

def forBound : List (Text × Text) :=
  [("via".toList, "SIP/2.0/UDP 127.0.0.1".toList), ("to".toList, "<sip:a@d>".toList)]

theorem register_expires_seven :
    let fields := forBound ++ [("contact".toList, "<sip:a@h>".toList)]
    (Gate.withBinding.registrar.register ⟨0, true, fun _ => []⟩ .zero
        (saying ['0', '7'] fields) 5060).Same 0
      (Gate.withBinding.registrar.register ⟨0, true, fun _ => []⟩ .zero
        (saying ['+', '7'] fields) 5060) := by
  intro fields
  have halike := saying_alike ['0', '7'] ['+', '7'] fields
  have hseven : Intent.expires? (saying ['0', '7'] fields) = some 7 ∧
      Intent.expires? (saying ['+', '7'] fields) = some 7 := by decide +kernel
  have hzero : ¬ (saying ['0', '7'] fields).SaysZero ∧ ¬ (saying ['+', '7'] fields).SaysZero := by
    decide +kernel
  have hsame := (register_expires ⟨0, true, fun _ => []⟩ .zero (saying ['0', '7'] fields) 5060
    Gate.withBinding.registrar).1 _ 7 halike hseven.1 hseven.2
  exact hsame.2 (Or.inl (iff_of_false hzero.1 hzero.2))

/-- Without a contact `0` removes the binding, `00` is told of it, and so is what is no number. -/
theorem register_zeros :
    (saying ['0'] forBound).AlikeButExpires (saying ['0', '0'] forBound) ∧
    Intent.expires? (saying ['0'] forBound) = some 0 ∧
    Intent.expires? (saying ['0', '0'] forBound) = some 0 ∧
    ¬ (Gate.withBinding.registrar.register ⟨0, true, fun _ => []⟩ .zero
        (saying ['0'] forBound) 5060).Same 0
      (Gate.withBinding.registrar.register ⟨0, true, fun _ => []⟩ .zero
        (saying ['0', '0'] forBound) 5060) ∧
    Intent.expires? (saying "soon".toList forBound) = none ∧
    (Gate.withBinding.registrar.register ⟨0, true, fun _ => []⟩ .zero
      (saying "soon".toList forBound) 5060).result = .ok () := by
  refine ⟨saying_alike _ _ _, by decide +kernel, by decide +kernel, ?_, by decide +kernel,
    by decide +kernel⟩
  intro hsame
  exact absurd hsame.live (by decide +kernel)

end Registrar
end SipTestbed
