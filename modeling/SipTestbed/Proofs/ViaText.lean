import SipTestbed.Proofs.HostText
import SipTestbed.Proofs.ParamsText
import SipTestbed.Via

/-! A Via that was read and then given parameters is read back from its printed form, up to what
reading makes of its host. -/
namespace SipTestbed

namespace Via

structure Printable (v : Via) : Prop where
  blank_transport : ∀ c ∈ v.transport, Text.isBlank c = false
  slash_transport : '/' ∉ v.transport
  upper_transport : Text.upper v.transport = v.transport
  semicolon_host : ';' ∉ v.sentBy.host
  params : ∀ p ∈ v.params, Params.Printable p

theorem transport?_eq_some {protocol t : Text} (h : transport? protocol = some t)
    (hb : ∀ c ∈ protocol, Text.isBlank c = false) :
    (∀ c ∈ t, Text.isBlank c = false) ∧ '/' ∉ t ∧ Text.upper t = t := by
  rw [transport?] at h
  split at h
  · cases hcut : Text.cutLast? '/' protocol with
    | none => simp [hcut] at h
    | some ab =>
      obtain ⟨a, b⟩ := ab
      obtain ⟨hp, hs⟩ := Text.cutLast?_eq_some_iff.1 hcut
      simp only [hcut, Option.map_some, Option.some.injEq] at h
      subst h
      refine ⟨?_, ?_, Text.upper_upper b⟩
      · intro c hc
        obtain ⟨d, hd, hdc⟩ := List.mem_map.1 hc
        rw [← hdc, Text.isBlank_toUpper]
        exact hb d (by simp [hp, hd])
      · exact fun hm => hs (Text.mem_of_mem_upper (by decide) hm)
  · cases h

theorem transport?_append {t : Text} (hs : '/' ∉ t) (hu : Text.upper t = t) :
    transport? (sipVersion ++ '/' :: t) = some t := by
  have hpre : (sipVersion ++ ['/']).isPrefixOf (Text.upper (sipVersion ++ '/' :: t)) = true := by
    have hup : Text.upper (sipVersion ++ '/' :: t) = (sipVersion ++ ['/']) ++ Text.upper t := by
      simp only [Text.upper, List.map_append, List.map_cons]
      rfl
    rw [hup, List.isPrefixOf_iff_prefix]
    exact List.prefix_append _ _
  have hcut : Text.cutLast? '/' (sipVersion ++ '/' :: t) = some (sipVersion, t) :=
    Text.cutLast?_eq_some_iff.2 ⟨rfl, hs⟩
  simp [transport?, hpre, hcut, hu]

theorem parts_of_parse {t : Text} {v : Via} (h : parse t = .ok v) : ∃ protocol rest place,
    Text.cutBy? Text.isBlank (Text.trim t) = some (protocol, rest) ∧
      transport? protocol = some v.transport ∧ HostPort.parse place = .ok v.sentBy ∧
      ((Text.cut? ';' rest = none ∧ place = rest ∧ v.params = []) ∨
        ∃ p, Text.cut? ';' rest = some (place, p) ∧ v.params = Params.parse p) := by
  rw [parse] at h
  cases hcut : Text.cutBy? Text.isBlank (Text.trim t) with
  | none => simp [hcut] at h
  | some pr =>
    obtain ⟨protocol, rest⟩ := pr
    simp only [hcut] at h
    cases ht : transport? protocol with
    | none => simp [ht] at h
    | some transport =>
      simp only [ht] at h
      cases hsemi : Text.cut? ';' rest with
      | none =>
        cases hp : HostPort.parse rest with
        | error e => simp [hsemi, hp, bind, Except.bind] at h
        | ok a =>
          simp only [hsemi, hp, bind, Except.bind, pure, Except.pure, Except.ok.injEq] at h
          subst h
          exact ⟨protocol, rest, rest, rfl, ht, hp, Or.inl ⟨hsemi, rfl, rfl⟩⟩
      | some sp =>
        obtain ⟨s, p⟩ := sp
        cases hp : HostPort.parse s with
        | error e => simp [hsemi, hp, bind, Except.bind] at h
        | ok a =>
          simp only [hsemi, hp, bind, Except.bind, pure, Except.pure, Except.ok.injEq] at h
          subst h
          exact ⟨protocol, rest, s, rfl, ht, hp, Or.inr ⟨p, hsemi, rfl⟩⟩

/-- The text of the host and the port, between the protocol and the parameters. -/
def place? (t : Text) : Option Text :=
  (Text.cutBy? Text.isBlank (Text.trim t)).map fun cut =>
    Text.trim ((Text.cut? ';' cut.2).elim cut.2 Prod.fst)

theorem place?_of_parse {t : Text} {v : Via} (h : parse t = .ok v) :
    ∃ place, place? t = some (Text.trim place) ∧ HostPort.parse place = .ok v.sentBy := by
  obtain ⟨protocol, rest, place, hcut, -, hp, hparts⟩ := parts_of_parse h
  refine ⟨place, ?_, hp⟩
  rw [place?, hcut, Option.map_some]
  obtain ⟨hsemi, rfl, -⟩ | ⟨p, hsemi, -⟩ := hparts
  · rw [hsemi, Option.elim_none]
  · rw [hsemi, Option.elim_some]

theorem stable_of_parse {t place : Text} {v : Via} (h : parse t = .ok v)
    (hplace : place? t = some place) (hbrackets : HostPort.WellBracketed place) :
    v.sentBy.Stable := by
  obtain ⟨text, htext, hsentBy⟩ := place?_of_parse h
  rw [hplace, Option.some.injEq] at htext
  exact HostPort.stable_of_parse hsentBy (htext ▸ hbrackets)

theorem mem_params_of_parse {t : Text} {v : Via} (h : parse t = .ok v) (ht : '"' ∉ t) :
    ∀ p ∈ v.params, Params.rereadParam p = p := by
  obtain ⟨protocol, rest, place, hcut, -, -, hparts⟩ := parts_of_parse h
  obtain ⟨c, htext, -⟩ := Text.cutBy?_eq_some_iff.1 hcut
  have hrest : '"' ∉ rest := by
    intro hm
    have hm' : '"' ∈ Text.trim t := by simp [htext, hm]
    exact ht (Text.mem_of_mem_trimBy hm')
  obtain ⟨-, -, hparams⟩ | ⟨p, hsemi, hparams⟩ := hparts
  · simp [hparams]
  · have hp : '"' ∉ p := fun hm => hrest (by simp [(Text.cut?_eq_some_iff.1 hsemi).1, hm])
    exact fun q hq => Params.rereadParam_of_parse hp (hparams ▸ hq)

theorem host_ne_nil_of_parse {t : Text} {v : Via} (h : parse t = .ok v) : v.sentBy.host ≠ [] := by
  obtain ⟨-, -, place, -, -, hp, -⟩ := parts_of_parse h
  exact HostPort.host_ne_nil_of_parse hp

theorem printable_of_parse {t : Text} {v : Via} (h : parse t = .ok v) : Printable v := by
  obtain ⟨protocol, rest, place, hcut, ht, hp, hparts⟩ := parts_of_parse h
  obtain ⟨c, -, -, hb⟩ := Text.cutBy?_eq_some_iff.1 hcut
  obtain ⟨htb, hts, htu⟩ := transport?_eq_some ht hb
  obtain ⟨hsemi, rfl, hparams⟩ | ⟨p, hsemi, hparams⟩ := hparts
  · have hplace := Text.cut?_eq_none_iff.1 hsemi
    exact ⟨htb, hts, htu, fun hm => hplace (HostPort.mem_of_parse hp hm), by simp [hparams]⟩
  · have hplace := (Text.cut?_eq_some_iff.1 hsemi).2
    exact ⟨htb, hts, htu, fun hm => hplace (HostPort.mem_of_parse hp hm),
      fun q hq => Params.printable_of_parse (hparams ▸ hq)⟩

theorem printable_setReceived {v : Via} (h : Printable v) (ip : IpAddr) :
    Printable (v.setReceived ip.render) := by
  have hip : ';' ∉ ip.render := IpAddr.not_mem_render (by decide) (by decide) (by decide) ip
  exact { h with params := Params.printable_set (Params.printable_pair (by decide) hip) h.params }

theorem printable_setRport {v : Via} (h : Printable v) (port : UInt16) :
    Printable (v.setRport port) := by
  have hport : ';' ∉ Decimal.write port.toNat := IpAddr.not_mem_write (by decide) _
  exact { h with params := Params.printable_set (Params.printable_pair (by decide) hport) h.params }

theorem cutBy?_protocol {v : Via} (h : Printable v) (rest : Text) :
    Text.cutBy? Text.isBlank (sipVersion ++ '/' :: v.transport ++ ' ' :: rest) =
      some (sipVersion ++ '/' :: v.transport, rest) := by
  rw [Text.cutBy?_eq_some_iff]
  refine ⟨' ', rfl, by decide, ?_⟩
  intro c hc
  cases List.mem_append.1 hc with
  | inl hc =>
    have hall : sipVersion.all (fun d => !Text.isBlank d) = true := by decide
    simpa only [Bool.not_eq_true'] using List.all_eq_true.1 hall c hc
  | inr hc =>
    cases List.mem_cons.1 hc with
    | inl hc =>
      subst hc
      decide
    | inr hc => exact h.blank_transport c hc

/-- A printed Via with parameters: whether it is read back is up to its host alone. -/
theorem parse_render {v : Via} (h : Printable v) (hne : v.params ≠ []) :
    parse v.render = (HostPort.parse v.sentBy.render).map fun a =>
      ⟨v.transport, a, v.params.map Params.rereadParam⟩ := by
  obtain ⟨p, ps, hps⟩ := List.exists_cons_of_ne_nil hne
  obtain ⟨text, htext⟩ : ∃ text, text = [';'].intercalate ((p :: ps).map Params.body) := ⟨_, rfl⟩
  have hrender : v.render = (sipVersion ++ '/' :: v.transport ++ ' ' :: v.sentBy.render) ++
      ';' :: text := by
    simp [render, hps, Params.render_cons, htext]
  -- The semicolon stops trimming from the right, and the version from the left.
  have htrim : Text.trim v.render = (sipVersion ++ '/' :: v.transport ++ ' ' :: v.sentBy.render) ++
      ';' :: text.rdropWhile Text.isBlank := by
    rw [hrender, Text.trim_append_cons _ _ (by decide)]
    rfl
  have hcut : Text.cutBy? Text.isBlank (Text.trim v.render) =
      some (sipVersion ++ '/' :: v.transport,
        v.sentBy.render ++ ';' :: text.rdropWhile Text.isBlank) := by
    rw [htrim, List.append_assoc, List.cons_append, cutBy?_protocol h]
  have hsemi : Text.cut? ';' (v.sentBy.render ++ ';' :: text.rdropWhile Text.isBlank) =
      some (v.sentBy.render, text.rdropWhile Text.isBlank) :=
    Text.cut?_eq_some_iff.2 ⟨rfl, HostPort.not_mem_render (by decide) (by decide) h.semicolon_host⟩
  have hparams : Params.parse (text.rdropWhile Text.isBlank) = v.params.map Params.rereadParam := by
    rw [Params.parse_rdropWhile, htext, hps]
    exact Params.parse_render (hps ▸ h.params)
  simp only [parse, hcut, transport?_append h.slash_transport h.upper_transport, hsemi, hparams]
  cases HostPort.parse v.sentBy.render <;> rfl

theorem parse_render_bare {v : Via} (h : Printable v) (hnil : v.params = [])
    (hne : v.sentBy.host ≠ []) (hstable : v.sentBy.Stable) : parse v.render = .ok v := by
  have hhost := HostPort.parse_render hne hstable
  have hplace : v.sentBy.render ≠ [] := by
    intro he
    rw [he] at hhost
    cases hhost
  have hrender : v.render = sipVersion ++ '/' :: v.transport ++ ' ' :: v.sentBy.render := by
    simp [render, hnil, Params.render]
  have htrim : Text.trim v.render = v.render := by
    have hend : Text.EndsPlain v.sentBy.render := Text.endsPlain_of_trim hstable.trim_render
    have hspaced : Text.EndsPlain (' ' :: v.sentBy.render) := hend.append_of_ne_nil hplace [' ']
    rw [hrender, Text.trim_eq_self_iff]
    refine ⟨fun c hc => ?_, hspaced.append_of_ne_nil (List.cons_ne_nil _ _) _⟩
    obtain rfl : 'S' = c := Option.some.inj hc
    decide
  have hsemi : Text.cut? ';' v.sentBy.render = none :=
    Text.cut?_eq_none_iff.2 (HostPort.not_mem_render (by decide) (by decide) h.semicolon_host)
  have hcut := cutBy?_protocol h v.sentBy.render
  rw [← hrender, ← htrim] at hcut
  simp only [parse, hcut, transport?_append h.slash_transport h.upper_transport, hsemi, hhost]
  rw [← hnil]
  rfl

/-- A Via is read back from its printed form if its host and its values are. -/
theorem parse_render_self {v : Via} (h : Printable v) (hne : v.sentBy.host ≠ [])
    (hstable : v.sentBy.Stable) (hparams : ∀ p ∈ v.params, Params.rereadParam p = p) :
    parse v.render = .ok v := by
  by_cases hnil : v.params = []
  · exact parse_render_bare h hnil hne hstable
  · have hsame : v.params.map Params.rereadParam = v.params :=
      (List.map_congr_left hparams).trans (List.map_id' _)
    rw [parse_render h hnil, HostPort.parse_render hne hstable, hsame]
    rfl

theorem reread_render (ip : IpAddr) : Params.reread ip.render = ip.render := by
  have hquote : '"' ∉ ip.render := IpAddr.not_mem_render (by decide) (by decide) (by decide) ip
  exact Params.reread_of_not_mem hquote
    (Text.trim_of_all fun c hc => IpAddr.isBlank_of_mem_render hc)

theorem reread_write (n : Nat) : Params.reread (Decimal.write n) = Decimal.write n := by
  have hquote : '"' ∉ Decimal.write n := IpAddr.not_mem_write (by decide) n
  exact Params.reread_of_not_mem hquote
    (Text.trim_of_all fun c hc => Text.isBlank_of_isDigit (Decimal.isDigit_of_mem_write hc))

end Via
end SipTestbed
