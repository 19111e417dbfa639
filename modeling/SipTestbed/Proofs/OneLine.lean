import SipTestbed.Message.Parser
import SipTestbed.Proofs.AddressText
import SipTestbed.Proofs.Source
import SipTestbed.Registrar.Intent

/-! No line feed gets into the values that are read of a message. Lines are parted before anything
else is made of them, and neither reading a part of a line nor printing it puts a line feed in. -/
namespace SipTestbed

namespace Text

def OneLine (t : Text) : Prop := '\n' ∉ t

instance (t : Text) : Decidable (OneLine t) := inferInstanceAs (Decidable ('\n' ∉ t))

@[simp] theorem oneLine_nil : OneLine [] := List.not_mem_nil

@[simp] theorem oneLine_cons {c : Char} {t : Text} : OneLine (c :: t) ↔ c ≠ '\n' ∧ OneLine t := by
  simp [OneLine, eq_comm]

@[simp] theorem oneLine_append {s t : Text} : OneLine (s ++ t) ↔ OneLine s ∧ OneLine t := by
  simp [OneLine]

variable {s t : Text}

theorem OneLine.trimBy (h : OneLine t) (p : Char → Bool) : OneLine (trimBy p t) :=
  fun hm => h (mem_of_mem_trimBy hm)

theorem OneLine.trim (h : OneLine t) : OneLine (trim t) := h.trimBy isBlank

theorem OneLine.upper (h : OneLine t) : OneLine (upper t) :=
  fun hm => h (mem_of_mem_upper (by decide) hm)

theorem OneLine.cutBy? (h : OneLine t) {p : Char → Bool} {a b : Text}
    (hc : cutBy? p t = some (a, b)) : OneLine a ∧ OneLine b := by
  obtain ⟨c, rfl, -⟩ := cutBy?_eq_some_iff.1 hc
  rw [oneLine_append, oneLine_cons] at h
  exact ⟨h.1, h.2.2⟩

theorem OneLine.cut? (h : OneLine t) {sep : Char} {a b : Text} (hc : cut? sep t = some (a, b)) :
    OneLine a ∧ OneLine b := h.cutBy? hc

theorem OneLine.cutLast? (h : OneLine t) {sep : Char} {a b : Text}
    (hc : cutLast? sep t = some (a, b)) : OneLine a ∧ OneLine b := by
  rw [(cutLast?_eq_some_iff.1 hc).1, oneLine_append, oneLine_cons] at h
  exact ⟨h.1, h.2.2⟩

theorem oneLine_write (n : Nat) : OneLine (Decimal.write n) := IpAddr.not_mem_write (by decide) n

theorem oneLine_render_ip (ip : IpAddr) : OneLine ip.render :=
  IpAddr.not_mem_render (by decide) (by decide) (by decide) ip

end Text

open Text (OneLine)

namespace Params

theorem oneLine_renderOne_iff {p : Param} :
    OneLine (renderOne p) ↔ OneLine p.1 ∧ ∀ v, p.2 = some v → OneLine v := by
  obtain ⟨k, v?⟩ := p
  cases v? with
  | none => simp [renderOne]
  | some v => simp [renderOne]

theorem oneLine_render_iff {ps : Params} :
    OneLine ps.render ↔ ∀ p ∈ ps, OneLine (renderOne p) := by
  simp [OneLine, render]

theorem oneLine_render_parse {t : Text} (ht : OneLine t) : OneLine (Params.parse t).render := by
  rw [oneLine_render_iff]
  intro p hp hm
  exact ht (mem_of_parse (by decide) hp ((mem_renderOne_iff (by decide) (by decide)).1 hm))

theorem oneLine_render_set {n v : Text} (hn : OneLine n) (hv : OneLine v) {ps : Params}
    (h : OneLine ps.render) : OneLine (Params.set n v ps).render := by
  rw [oneLine_render_iff] at h ⊢
  induction ps with
  | nil => simpa [Params.set, oneLine_renderOne_iff] using ⟨hn, hv⟩
  | cons p ps ih =>
    obtain ⟨hp, hps⟩ := List.forall_mem_cons.1 h
    rw [Params.set]
    split
    · have hset : OneLine (renderOne (p.1, some v)) :=
        oneLine_renderOne_iff.2 ⟨(oneLine_renderOne_iff.1 hp).1, by simpa using hv⟩
      exact List.forall_mem_cons.2 ⟨hset, hps⟩
    · exact List.forall_mem_cons.2 ⟨hp, ih hps⟩

end Params

namespace HostPort

@[simp] theorem oneLine_render_iff {a : HostPort} : OneLine a.render ↔ OneLine a.host := by
  have hhost : OneLine (renderHost a.host) ↔ OneLine a.host := by
    rw [renderHost]
    split
    · simp
    · exact Iff.rfl
  rw [render, Text.oneLine_append, hhost]
  cases a.port with
  | none => simp
  | some p => simp [Text.oneLine_write]

theorem oneLine_of_parse {t : Text} (ht : OneLine t) {a : HostPort} (h : parse t = .ok a) :
    OneLine a.host := fun hm => ht (mem_of_parse h hm)

end HostPort

namespace Via

theorem oneLine_render_iff {v : Via} : OneLine v.render ↔
    OneLine v.transport ∧ OneLine v.sentBy.host ∧ OneLine v.params.render := by
  have hversion : OneLine sipVersion := by decide
  simp [render, hversion]

theorem oneLine_transport? {protocol t : Text} (hp : OneLine protocol)
    (h : transport? protocol = some t) : OneLine t := by
  rw [transport?] at h
  split at h
  · obtain ⟨⟨a, b⟩, hslash, hb⟩ := Option.map_eq_some_iff.1 h
    exact hb ▸ (hp.cutLast? hslash).2.upper
  · cases h

theorem oneLine_render_of_parse {t : Text} (ht : OneLine t) {v : Via} (h : parse t = .ok v) :
    OneLine v.render := by
  obtain ⟨protocol, rest, place, hcut, htransport, hp, hparts⟩ := parts_of_parse h
  obtain ⟨hprotocol, hrest⟩ := ht.trim.cutBy? hcut
  have hfront := oneLine_transport? hprotocol htransport
  rw [oneLine_render_iff]
  obtain ⟨-, rfl, hparams⟩ | ⟨p, hsemi, hparams⟩ := hparts
  · exact ⟨hfront, HostPort.oneLine_of_parse hrest hp, by simp [hparams, Params.render]⟩
  · obtain ⟨hplace, hptext⟩ := hrest.cut? hsemi
    exact ⟨hfront, HostPort.oneLine_of_parse hplace hp,
      hparams ▸ Params.oneLine_render_parse hptext⟩

theorem oneLine_render_stamp? {src : Endpoint} {v v' : Via} (hv : OneLine v.render)
    (h : v.stamp? src = some v') : OneLine v'.render := by
  have hreceived : OneLine (v.setReceived src.ip.render).render := by
    rw [oneLine_render_iff] at hv ⊢
    exact ⟨hv.1, hv.2.1, Params.oneLine_render_set (by decide) (Text.oneLine_render_ip _) hv.2.2⟩
  have hboth : OneLine ((v.setReceived src.ip.render).setRport src.port).render := by
    rw [oneLine_render_iff] at hreceived ⊢
    exact ⟨hreceived.1, hreceived.2.1,
      Params.oneLine_render_set (by decide) (Text.oneLine_write _) hreceived.2.2⟩
  rw [stamp?] at h
  split at h
  · split at h
    · exact Option.some.inj h ▸ hreceived
    · exact Option.some.inj h ▸ hboth
  · split at h
    · exact Option.some.inj h ▸ hboth
    · cases h

end Via

namespace Uri

theorem oneLine_render_iff {u : Uri} : OneLine u.render ↔
    (∀ i, u.user = some i → OneLine i.render) ∧ OneLine u.hostPort.host ∧
      OneLine u.params.render ∧ ∀ h, u.headers = some h → OneLine h := by
  have hscheme : OneLine u.scheme.render := by cases u.scheme <;> decide
  rw [render]
  cases u.user <;> cases u.headers <;> simp [hscheme]

theorem oneLine_render_of_parse {t : Text} (ht : OneLine t) {u : Uri} (h : parse t = .ok u) :
    OneLine u.render := by
  obtain ⟨p, htext, -, hread⟩ := parse_eq_ok_iff.1 h
  obtain ⟨-, huser, hplace, hparams, hheaders⟩ := Parts.read_eq_ok_iff.1 hread
  have hp : OneLine p.text := htext ▸ ht.trim
  obtain ⟨hauthority, hsemicolon, hquestion⟩ :
      OneLine p.authority ∧ OneLine (led ';' p.params) ∧ OneLine (led '?' p.headers) := by
    simpa [Parts.text, and_assoc] using (Text.oneLine_append.1 hp).2
  rw [oneLine_render_iff]
  refine ⟨?_, ?_, ?_, ?_⟩
  · intro i hi
    rw [huser, Option.map_eq_some_iff] at hi
    obtain ⟨user, hu, rfl⟩ := hi
    rw [(UserInfo.render_parse user).1]
    exact fun hm => hauthority (Parts.mem_authority (Or.inr ⟨user, hu, hm⟩))
  · exact HostPort.oneLine_of_parse
      (fun hm => hauthority (Parts.mem_authority (Or.inl hm))) hplace
  · rw [hparams]
    cases hsome : p.params with
    | none => exact Text.oneLine_nil
    | some params =>
      rw [hsome, led, Text.oneLine_cons] at hsemicolon
      exact Params.oneLine_render_parse hsemicolon.2
  · intro headers hsome
    rw [← hheaders, hsome, led, Text.oneLine_cons] at hquestion
    exact hquestion.2

theorem oneLine_render_fillPort {u : Uri} (h : OneLine u.render) (port : UInt16) :
    OneLine (Intent.fillPort port u).render := by
  rw [oneLine_render_iff] at h ⊢
  exact h

end Uri

namespace Address

theorem oneLine_uri_of_parse {t : Text} (ht : OneLine t) {a : Address} (h : parse t = .ok a) :
    OneLine a.uri.render := by
  obtain ⟨u, p, rfl, -, -, hu, -⟩ | ⟨name, u, p, rfl, -, -, hu, -⟩ := forms_of_parse h
  · exact Uri.oneLine_render_of_parse (Text.oneLine_append.1 ht).1 hu
  · simp only [Text.oneLine_append, Text.oneLine_cons] at ht
    exact Uri.oneLine_render_of_parse ht.2.2.1 hu

end Address

/-- Every value stands on one line. -/
def Headers.Unfolded (hs : Headers) : Prop := ∀ e ∈ hs.entries, Text.OneLine e.2

namespace Headers

theorem oneLine_of_mem_getAll {hs : Headers} (h : hs.Unfolded) {n v : Text} (hv : v ∈ hs.getAll n) :
    Text.OneLine v := by
  obtain ⟨e, he, rfl⟩ := List.mem_map.1 hv
  exact h e (List.mem_filter.1 he).1

theorem oneLine_of_get? {hs : Headers} (h : hs.Unfolded) {n v : Text} (hv : hs.get? n = some v) :
    Text.OneLine v := by
  rw [get?_eq_head?] at hv
  exact oneLine_of_mem_getAll h (List.mem_of_head? hv)

theorem unfolded_replaceFirst {hs : Headers} (h : hs.Unfolded) (n : Text) {v : Text}
    (hv : Text.OneLine v) : (hs.replaceFirst n v).Unfolded := by
  obtain ⟨es⟩ := hs
  simp only [Unfolded, replaceFirst] at h ⊢
  induction es with
  | nil => simpa [replaceEntry] using hv
  | cons e es ih =>
    obtain ⟨he, hes⟩ := List.forall_mem_cons.1 h
    rw [replaceEntry]
    split
    · exact List.forall_mem_cons.2 ⟨hv, hes⟩
    · exact List.forall_mem_cons.2 ⟨he, ih hes⟩

end Headers

namespace Message

theorem oneLine_of_mem_lines {head line : Text} (h : line ∈ lines head) : OneLine line := by
  obtain ⟨piece, hp, rfl⟩ := List.mem_map.1 h
  have hpiece : OneLine piece := Text.not_mem_of_mem_splitOn hp
  rw [stripReturn]
  split
  · exact fun hm => hpiece ((List.dropLast_sublist piece).mem hm)
  · exact hpiece

theorem oneLine_fields {ls : List Text} (hls : ∀ l ∈ ls, OneLine l) {done es : List (Text × Text)}
    {open? : Option (Text × Text)} (hdone : ∀ e ∈ done ++ open?.toList, OneLine e.2)
    (h : fields done open? ls = .ok es) : ∀ e ∈ es, OneLine e.2 := by
  induction ls generalizing done open? with
  | nil =>
    rw [fields, Except.ok.injEq] at h
    exact h ▸ hdone
  | cons l ls ih =>
    obtain ⟨hl, hrest⟩ := List.forall_mem_cons.1 hls
    unfold fields at h
    split at h
    · exact Except.ok.inj h ▸ hdone
    · split at h
      · cases open? with
        | none => cases h
        | some nv =>
          obtain ⟨n, v⟩ := nv
          refine ih hrest ?_ h
          intro e he
          simp only [Option.toList_some, List.mem_append, List.mem_singleton] at he hdone
          cases he with
          | inl he => exact hdone e (Or.inl he)
          | inr he =>
            have hv : OneLine v := hdone (n, v) (Or.inr rfl)
            simpa [he, hv] using hl.trim
      · cases hcut : Text.cut? ':' l with
        | none => simp [hcut] at h
        | some nv =>
          obtain ⟨n, v⟩ := nv
          simp only [hcut] at h
          refine ih hrest ?_ h
          intro e he
          cases List.mem_append.1 he with
          | inl he => exact hdone e he
          | inr he =>
            rw [Option.toList_some, List.mem_singleton] at he
            exact he ▸ (hl.cut? hcut).2.trim

def headers : Message → Headers
  | .request r => r.headers
  | .response r => r.headers

def body : Message → Utf8.Octets
  | .request r => r.body
  | .response r => r.body

theorem eq_of_ofParts {start : Text} {hs : Headers} {body : Utf8.Octets} {m : Message}
    (h : ofParts start hs body = .ok m) : m.headers = hs ∧ m.body = body := by
  rw [ofParts] at h
  split at h
  · split at h
    · cases h
      exact ⟨rfl, rfl⟩
    · cases h
  · split at h
    · split at h
      · cases h
        exact ⟨rfl, rfl⟩
      · cases h
    · cases h

def headLines (data : Utf8.Octets) : List Text :=
  ((Utf8.decode? (splitHead (skipBreaks data)).1).map lines).getD []

theorem oneLine_of_mem_headLines {data : Utf8.Octets} {line : Text} (h : line ∈ headLines data) :
    OneLine line := by
  rw [headLines] at h
  cases hd : Utf8.decode? (splitHead (skipBreaks data)).1 with
  | none => simp [hd] at h
  | some head =>
    rw [hd, Option.map_some, Option.getD_some] at h
    exact oneLine_of_mem_lines h

/-- What a message is made of: a start line, the fields of the lines behind it, and what follows
the head, as far as those fields say. -/
theorem parts_of_parse {data : Utf8.Octets} {m : Message} (h : parse data = .ok m) :
    ∃ start ls es, headLines data = start :: ls ∧ fields [] none ls = .ok es ∧
      m.headers = Headers.ofList es ∧
      limitBody m.headers (splitHead (skipBreaks data)).2 = .ok m.body ∧
      ofParts start m.headers m.body = .ok m := by
  rw [parse] at h
  split at h
  · cases h
  · split at h
    · cases h
    · rename_i head hdecode
      obtain ⟨start, ls, hlines⟩ : ∃ start ls, lines head = start :: ls :=
        List.exists_cons_of_ne_nil (by simp [lines])
      have hhead : headLines data = start :: ls := by
        rw [headLines, hdecode, Option.map_some, Option.getD_some, hlines]
      rw [hlines, List.headD_cons, List.tail_cons, ofLines] at h
      cases hf : fields [] none ls with
      | error e => simp [hf, bind, Except.bind] at h
      | ok es =>
        cases hl : limitBody (Headers.ofList es) (splitHead (skipBreaks data)).2 with
        | error e => simp [hf, hl, bind, Except.bind] at h
        | ok body =>
          simp only [hf, hl, bind, Except.bind] at h
          obtain ⟨hheaders, hbody⟩ := eq_of_ofParts h
          exact ⟨start, ls, es, hhead, hf, hheaders, by rw [hheaders, hl, hbody],
            by rw [hheaders, hbody, h]⟩

theorem unfolded_of_parse {data : Utf8.Octets} {m : Message} (h : parse data = .ok m) :
    m.headers.Unfolded := by
  obtain ⟨start, ls, es, hlines, hfields, hheaders, -, -⟩ := parts_of_parse h
  have htail : ∀ l ∈ ls, OneLine l :=
    fun l hl => oneLine_of_mem_headLines (hlines ▸ List.mem_cons_of_mem start hl)
  rw [hheaders, Headers.Unfolded, Headers.entries_ofList, List.forall_mem_map]
  exact oneLine_fields htail (by simp) hfields

end Message

theorem Request.unfolded_stamp {src : Endpoint} {r r' : Request} (hr : r.headers.Unfolded)
    (h : r.stamp src = .ok r') : r'.headers.Unfolded := by
  obtain ⟨v, hv⟩ := via?_of_stamp h
  obtain ⟨text, hg, hp⟩ := via?_eq_some_iff.1 hv
  rw [stamp_of_via? hv, Except.ok.injEq] at h
  cases hs : v.stamp? src with
  | none =>
    rw [hs] at h
    exact h ▸ hr
  | some v' =>
    have hrender : OneLine v.render :=
      Via.oneLine_render_of_parse (Headers.oneLine_of_get? hr hg) hp
    simp only [hs] at h
    exact h ▸ Headers.unfolded_replaceFirst hr _ (Via.oneLine_render_stamp? hrender hs)

end SipTestbed
