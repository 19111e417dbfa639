import SipTestbed.Proofs.HostText
import SipTestbed.Proofs.ParamsText
import SipTestbed.Uri

/-! The texts that a URI is cut into, and back. Each separator is looked for in what the others have
left, so that `?` and `;` end at their first and `@` at its last, and a URI is read back from its
printed form if no part of it holds a separator that is looked for where it stands. -/
namespace SipTestbed

theorem Scheme.parse_render (s : Scheme) : parse (Text.lower s.render) = .ok s := by
  cases s <;> decide

theorem Scheme.colon_not_mem_render (s : Scheme) : ':' ∉ s.render := by
  cases s <;> decide

namespace UserInfo

theorem parse_render {i : UserInfo} (h : ':' ∉ i.name) : parse i.render = i := by
  obtain ⟨name, password⟩ := i
  cases password with
  | none => rw [parse, render, Text.cut?_eq_none_iff.2 h]
  | some p => rw [parse, render, Text.cut?_eq_some_iff.2 ⟨rfl, h⟩]

theorem render_parse (t : Text) : (parse t).render = t ∧ ':' ∉ (parse t).name := by
  rw [parse]
  cases hcut : Text.cut? ':' t with
  | none => exact ⟨rfl, Text.cut?_eq_none_iff.1 hcut⟩
  | some np =>
    obtain ⟨ht, hn⟩ := Text.cut?_eq_some_iff.1 hcut
    exact ⟨ht.symm, hn⟩

theorem mem_render_iff {i : UserInfo} {c : Char} (hc : c ≠ ':') :
    c ∈ i.render ↔ c ∈ i.name ∨ ∃ p, i.password = some p ∧ c ∈ p := by
  obtain ⟨name, password⟩ := i
  cases password with
  | none => simp [render]
  | some p => simp [render, hc]

end UserInfo

namespace Uri

/-- A separator and the text after it, if it occurs. -/
def led (sep : Char) : Option Text → Text
  | some t => sep :: t
  | none => []

theorem cutOff_cut?_iff {sep : Char} {t a : Text} {b : Option Text} :
    cutOff (Text.cut? sep t) t = (a, b) ↔ t = a ++ led sep b ∧ sep ∉ a := by
  constructor
  · intro h
    cases hcut : Text.cut? sep t with
    | none =>
      rw [hcut] at h
      cases h
      exact ⟨(List.append_nil t).symm, Text.cut?_eq_none_iff.1 hcut⟩
    | some xy =>
      rw [hcut] at h
      cases h
      exact Text.cut?_eq_some_iff.1 hcut
  · rintro ⟨rfl, ha⟩
    cases b with
    | none => rw [led, List.append_nil, Text.cut?_eq_none_iff.2 ha, cutOff]
    | some b => rw [led, Text.cut?_eq_some_iff.2 ⟨rfl, ha⟩, cutOff]

/-- The texts of a URI, without the separators between them. -/
structure Parts where
  scheme : Text
  user : Option Text
  place : Text
  params : Option Text
  headers : Option Text

namespace Parts

def authority (p : Parts) : Text :=
  match p.user with
  | some u => u ++ '@' :: p.place
  | none => p.place

def text (p : Parts) : Text :=
  p.scheme ++ ':' :: (p.authority ++ led ';' p.params ++ led '?' p.headers)

theorem mem_authority {p : Parts} {c : Char}
    (h : c ∈ p.place ∨ ∃ t, p.user = some t ∧ c ∈ t) : c ∈ p.authority := by
  rw [authority]
  obtain h | ⟨t, ht, h⟩ := h
  · cases p.user <;> simp [h]
  · simp [ht, h]

/-- No separator stands where the search for it would find it too early or, for `@`, too late. -/
structure Apart (p : Parts) : Prop where
  scheme : ':' ∉ p.scheme
  headers : '?' ∉ p.authority ++ led ';' p.params
  params : ';' ∉ p.authority
  place : '@' ∉ p.place

def read (p : Parts) : Except ParseError Uri := do
  let scheme ← Scheme.parse (Text.lower p.scheme)
  let hostPort ← HostPort.parse p.place
  return ⟨scheme, p.user.map UserInfo.parse, hostPort, (p.params.map Params.parse).getD [],
    p.headers⟩

theorem read_eq_ok_iff {p : Parts} {u : Uri} : p.read = .ok u ↔
    Scheme.parse (Text.lower p.scheme) = .ok u.scheme ∧ u.user = p.user.map UserInfo.parse ∧
      HostPort.parse p.place = .ok u.hostPort ∧ u.params = (p.params.map Params.parse).getD [] ∧
      u.headers = p.headers := by
  obtain ⟨scheme, user, hostPort, params, headers⟩ := u
  rw [read]
  cases hs : Scheme.parse (Text.lower p.scheme) with
  | error e => simp [bind, Except.bind]
  | ok s =>
    cases hp : HostPort.parse p.place with
    | error e => simp [bind, Except.bind]
    | ok a =>
      simp only [bind, Except.bind, pure, Except.pure, Except.ok.injEq, Uri.mk.injEq]
      grind

end Parts

def parts? (t : Text) : Option Parts :=
  match Text.cut? ':' t with
  | none => none
  | some (scheme, rest) =>
    let (rest, headers) := cutOff (Text.cut? '?' rest) rest
    let (rest, params) := cutOff (Text.cut? ';' rest) rest
    match Text.cutLast? '@' rest with
    | some (user, place) => some ⟨scheme, some user, place, params, headers⟩
    | none => some ⟨scheme, none, rest, params, headers⟩

theorem parts?_eq_some_iff {t : Text} {p : Parts} : parts? t = some p ↔ t = p.text ∧ p.Apart := by
  constructor
  · intro h
    rw [parts?] at h
    split at h
    · cases h
    · rename_i scheme rest hcolon
      obtain ⟨rest₁, headers, hheaders⟩ : ∃ a b, cutOff (Text.cut? '?' rest) rest = (a, b) :=
        ⟨_, _, rfl⟩
      obtain ⟨rest₂, params, hparams⟩ : ∃ a b, cutOff (Text.cut? ';' rest₁) rest₁ = (a, b) :=
        ⟨_, _, rfl⟩
      simp only [hheaders, hparams] at h
      obtain ⟨ht, hs⟩ := Text.cut?_eq_some_iff.1 hcolon
      obtain ⟨rfl, hquestion⟩ := cutOff_cut?_iff.1 hheaders
      obtain ⟨rfl, hsemicolon⟩ := cutOff_cut?_iff.1 hparams
      cases hat : Text.cutLast? '@' rest₂ with
      | none =>
        simp only [hat, Option.some.injEq] at h
        exact h ▸ ⟨ht, hs, hquestion, hsemicolon, Text.cutLast?_eq_none_iff.1 hat⟩
      | some uh =>
        obtain ⟨user, place⟩ := uh
        obtain ⟨rfl, hplace⟩ := Text.cutLast?_eq_some_iff.1 hat
        simp only [hat, Option.some.injEq] at h
        exact h ▸ ⟨ht, hs, hquestion, hsemicolon, hplace⟩
  · rintro ⟨rfl, hp⟩
    have hcolon : Text.cut? ':' p.text =
        some (p.scheme, p.authority ++ led ';' p.params ++ led '?' p.headers) :=
      Text.cut?_eq_some_iff.2 ⟨rfl, hp.scheme⟩
    have hheaders := cutOff_cut?_iff.2 ⟨(rfl : _ = _ ++ led '?' p.headers), hp.headers⟩
    have hparams := cutOff_cut?_iff.2 ⟨(rfl : _ = _ ++ led ';' p.params), hp.params⟩
    have hplace := hp.place
    simp only [parts?, hcolon, hheaders, hparams]
    obtain ⟨scheme, user, place, params, headers⟩ := p
    cases user with
    | none => simp only [Parts.authority, Text.cutLast?_eq_none_iff.2 hplace]
    | some user => simp only [Parts.authority, Text.cutLast?_eq_some_iff.2 ⟨rfl, hplace⟩]

theorem parse_eq (t : Text) : parse t =
    match parts? (Text.trim t) with
    | none => .error (.notUri (Text.trim t))
    | some p => p.read := by
  rw [parse, parts?]
  cases Text.cut? ':' (Text.trim t) with
  | none => rfl
  | some sr =>
    obtain ⟨scheme, rest⟩ := sr
    obtain ⟨rest₁, headers, hheaders⟩ : ∃ a b, cutOff (Text.cut? '?' rest) rest = (a, b) :=
      ⟨_, _, rfl⟩
    obtain ⟨rest₂, params, hparams⟩ : ∃ a b, cutOff (Text.cut? ';' rest₁) rest₁ = (a, b) :=
      ⟨_, _, rfl⟩
    simp only [hheaders, hparams]
    cases Text.cutLast? '@' rest₂ <;> rfl

theorem parse_eq_ok_iff {t : Text} {u : Uri} : parse t = .ok u ↔
    ∃ p : Parts, Text.trim t = p.text ∧ p.Apart ∧ p.read = .ok u := by
  rw [parse_eq]
  constructor
  · intro h
    cases hp : parts? (Text.trim t) with
    | none => simp [hp] at h
    | some p =>
      rw [hp] at h
      obtain ⟨ht, hapart⟩ := parts?_eq_some_iff.1 hp
      exact ⟨p, ht, hapart, h⟩
  · rintro ⟨p, ht, hapart, hread⟩
    rw [parts?_eq_some_iff.2 ⟨ht, hapart⟩]
    exact hread

/-- No part holds a separator that would be found in it, and no blanks end the headers. -/
structure Separable (u : Uri) : Prop where
  name : ∀ i, u.user = some i → ':' ∉ i.name ∧ ';' ∉ i.name ∧ '?' ∉ i.name
  password : ∀ i p, u.user = some i → i.password = some p → ';' ∉ p ∧ '?' ∉ p
  host : u.host ≠ [] ∧ '@' ∉ u.host ∧ ';' ∉ u.host ∧ '?' ∉ u.host
  params : ∀ p ∈ u.params, Params.Printable p ∧ '?' ∉ p.1 ∧ ∀ v, p.2 = some v → '?' ∉ v
  headers : ∀ h, u.headers = some h → Text.EndsPlain h

instance (u : Uri) : Decidable u.Separable :=
  decidable_of_iff ((∀ i ∈ u.user, ':' ∉ i.name ∧ ';' ∉ i.name ∧ '?' ∉ i.name) ∧
      (∀ i ∈ u.user, ∀ p ∈ i.password, ';' ∉ p ∧ '?' ∉ p) ∧
      (u.host ≠ [] ∧ '@' ∉ u.host ∧ ';' ∉ u.host ∧ '?' ∉ u.host) ∧
      (∀ p ∈ u.params, Params.Printable p ∧ '?' ∉ p.1 ∧ ∀ v ∈ p.2, '?' ∉ v) ∧
      ∀ h ∈ u.headers, Text.EndsPlain h)
    ⟨fun ⟨a, b, c, d, e⟩ => ⟨a, fun i p hi hp => b i hi p hp, c, d, e⟩,
      fun ⟨a, b, c, d, e⟩ => ⟨a, fun i hi p hp => b i p hi hp, c, d, e⟩⟩

def parts (u : Uri) : Parts :=
  ⟨u.scheme.render, u.user.map UserInfo.render, u.hostPort.render, u.params.text?, u.headers⟩

theorem led_text? (ps : Params) : led ';' ps.text? = ps.render := by
  cases ps with
  | nil => rfl
  | cons p ps => rw [Params.text?, led, Params.render_cons]

theorem text_parts (u : Uri) : u.parts.text = u.render := by
  obtain ⟨scheme, user, hostPort, params, headers⟩ := u
  rw [Parts.text, parts, led_text?, render]
  cases user <;> cases headers <;> simp [Parts.authority, led]

theorem not_mem_authority {u : Uri} {c : Char} (hc : c ∉ ['@', ':', '[', ']'])
    (hd : c.isDigit = false) (hname : ∀ i, u.user = some i → c ∉ i.name)
    (hpassword : ∀ i p, u.user = some i → i.password = some p → c ∉ p) (hhost : c ∉ u.host) :
    c ∉ u.parts.authority := by
  simp only [List.mem_cons, List.not_mem_nil, or_false, not_or] at hc
  have hplace : c ∉ u.hostPort.render :=
    HostPort.not_mem_render (by simp [hc]) hd hhost
  rw [Parts.authority, parts]
  cases huser : u.user with
  | none => exact hplace
  | some i =>
    have hi : c ∉ i.render := by
      rw [UserInfo.mem_render_iff hc.2.1, not_or]
      exact ⟨hname i huser, fun ⟨p, hp, hm⟩ => hpassword i p huser hp hm⟩
    simp [hi, hplace, hc.1]

variable {u : Uri}

theorem Separable.apart (h : u.Separable) : u.parts.Apart where
  scheme := u.scheme.colon_not_mem_render
  headers := by
    rw [List.mem_append, not_or, parts, led_text?, Params.render, List.mem_flatMap]
    refine ⟨not_mem_authority (by decide) (by decide) (fun i hi => (h.name i hi).2.2)
      (fun i p hi hp => (h.password i p hi hp).2) h.host.2.2.2, ?_⟩
    rintro ⟨p, hp, hm⟩
    obtain ⟨-, hname, hvalue⟩ := h.params p hp
    obtain hk | ⟨v, hv, hm⟩ := (Params.mem_renderOne_iff (by decide) (by decide)).1 hm
    · exact hname hk
    · exact hvalue v hv hm
  params := not_mem_authority (by decide) (by decide) (fun i hi => (h.name i hi).2.1)
    (fun i p hi hp => (h.password i p hi hp).1) h.host.2.2.1
  place := HostPort.not_mem_render (by decide) (by decide) h.host.2.1

theorem Separable.trim_render (h : u.Separable) (hhost : u.hostPort.Stable)
    (hparams : ∀ p ∈ u.params, Params.rereadParam p = p) : Text.trim u.render = u.render := by
  have hplace : Text.EndsPlain u.hostPort.render := Text.endsPlain_of_trim hhost.trim_render
  have hauthority : Text.EndsPlain u.parts.authority := by
    rw [Parts.authority, parts]
    cases u.user with
    | none => exact hplace
    | some i => exact (hplace.cons (by decide)).append_of_ne_nil (List.cons_ne_nil _ _) i.render
  have htail : Text.EndsPlain u.params.render :=
    Params.endsPlain_render (fun p hp => (h.params p hp).1) hparams
  have hheaders : Text.EndsPlain (led '?' u.headers) := by
    cases hu : u.headers with
    | none => exact fun c hc => by cases hc
    | some t => exact (h.headers t hu).cons (by decide)
  have hrest : Text.EndsPlain (u.parts.authority ++ led ';' u.parts.params ++ led '?' u.headers) :=
    (hauthority.append (by rwa [parts, led_text?])).append hheaders
  apply Text.trimBy_eq_self
  · intro c hc
    cases hs : u.scheme <;> simp [render, hs, Scheme.render] at hc <;> exact hc ▸ rfl
  · rw [← text_parts]
    exact (hrest.cons (by decide)).append_of_ne_nil (List.cons_ne_nil _ _) u.scheme.render

/-- A URI is read back from its printed form if its host and its values are. -/
theorem Separable.parse_render (h : u.Separable) (hhost : u.hostPort.Stable)
    (hparams : ∀ p ∈ u.params, Params.rereadParam p = p) : parse u.render = .ok u := by
  rw [parse_eq_ok_iff]
  refine ⟨u.parts, ?_, h.apart, ?_⟩
  · rw [text_parts, h.trim_render hhost hparams]
  rw [Parts.read_eq_ok_iff]
  refine ⟨u.scheme.parse_render, ?_, HostPort.parse_render h.host.1 hhost, ?_, rfl⟩
  · cases huser : u.user with
    | none => simp [parts, huser]
    | some i => simp [parts, huser, UserInfo.parse_render (h.name i huser).1]
  · have hsame : u.params.map Params.rereadParam = u.params :=
      (List.map_congr_left hparams).trans (List.map_id' _)
    rw [parts, Params.parse_text? fun p hp => (h.params p hp).1, hsame]

theorem separable_of_parse {t : Text} (h : parse t = .ok u) : u.Separable := by
  obtain ⟨p, ht, hapart, hread⟩ := parse_eq_ok_iff.1 h
  obtain ⟨-, huser, hplace, hparams, hheaders⟩ := Parts.read_eq_ok_iff.1 hread
  -- Each part lies in a piece that was cut off at a separator, so it does not hold that one.
  have hquestion : '?' ∉ p.authority := fun hm => hapart.headers (List.mem_append_left _ hm)
  have hinfo : ∀ i, u.user = some i → ':' ∉ i.name ∧ ∀ c ∈ i.render, c ∈ p.authority := by
    intro i hi
    rw [huser, Option.map_eq_some_iff] at hi
    obtain ⟨text, htext, rfl⟩ := hi
    obtain ⟨hrender, hcolon⟩ := UserInfo.render_parse text
    exact ⟨hcolon, fun c hc => Parts.mem_authority (Or.inr ⟨text, htext, hrender ▸ hc⟩)⟩
  have hhost {c : Char} (hc : c ∈ u.host) : c ∈ p.place := HostPort.mem_of_parse hplace hc
  constructor
  case name =>
    intro i hi
    obtain ⟨hcolon, hin⟩ := hinfo i hi
    refine ⟨hcolon, fun hm => hapart.params (hin _ ?_), fun hm => hquestion (hin _ ?_)⟩
    all_goals exact (UserInfo.mem_render_iff (by decide)).2 (Or.inl hm)
  case password =>
    intro i w hi hw
    obtain ⟨-, hin⟩ := hinfo i hi
    refine ⟨fun hm => hapart.params (hin _ ?_), fun hm => hquestion (hin _ ?_)⟩
    all_goals exact (UserInfo.mem_render_iff (by decide)).2 (Or.inr ⟨w, hw, hm⟩)
  case host =>
    exact ⟨HostPort.host_ne_nil_of_parse hplace, fun hm => hapart.place (hhost hm),
      fun hm => hapart.params (Parts.mem_authority (Or.inl (hhost hm))),
      fun hm => hquestion (Parts.mem_authority (Or.inl (hhost hm)))⟩
  case params =>
    intro q hq
    cases htext : p.params with
    | none => simp [hparams, htext] at hq
    | some text =>
      rw [hparams, htext, Option.map_some, Option.getD_some] at hq
      have hno : '?' ∉ text := by
        intro hm
        exact hapart.headers (by simp [htext, led, hm])
      have hparse := Params.mem_of_parse (c := '?') (by decide) hq
      exact ⟨Params.printable_of_parse hq, fun hm => hno (hparse (Or.inl hm)),
        fun v hv hm => hno (hparse (Or.inr ⟨v, hv, hm⟩))⟩
  case headers =>
    intro text htext
    have hends : Text.EndsPlain p.text := ht ▸ Text.endsPlain_of_trim (Text.trim_trim t)
    rw [Parts.text, ← hheaders, htext, ← List.cons_append, ← List.append_assoc] at hends
    exact Text.EndsPlain.of_append (s := ['?']) hends.of_append

theorem rereadParam_of_parse {t : Text} (h : parse t = .ok u) (ht : '"' ∉ t) :
    ∀ p ∈ u.params, Params.rereadParam p = p := by
  obtain ⟨p, htext, -, hread⟩ := parse_eq_ok_iff.1 h
  obtain ⟨-, -, -, hparams, -⟩ := Parts.read_eq_ok_iff.1 hread
  intro q hq
  cases hp : p.params with
  | none => simp [hparams, hp] at hq
  | some text =>
    rw [hparams, hp, Option.map_some, Option.getD_some] at hq
    have hno : '"' ∉ text := by
      intro hm
      have hin : '"' ∈ Text.trim t := by simp [htext, Parts.text, hp, led, hm]
      exact ht (Text.mem_of_mem_trimBy hin)
    exact Params.rereadParam_of_parse hno hq

/-- A URI is read back from its printed form if its parts are told from each other and none starts
or ends with what reading takes off. One that was read from a text without quotes is read back if
the text had no brackets around the host, or had them around a literal with colons. -/
theorem round_trip :
    (∀ u : Uri, u.Separable → (Text.trim u.host = u.host ∧ '[' ∉ u.host ∧ ']' ∉ u.host) →
      (∀ p ∈ u.params, ∀ v, p.2 = some v →
        Text.trim v = v ∧ v.head? ≠ some '"' ∧ v.getLast? ≠ some '"') →
      parse u.render = .ok u) ∧
    ∀ t u, parse t = .ok u → '"' ∉ t →
      (∀ p, parts? (Text.trim t) = some p → HostPort.WellBracketed (Text.trim p.place)) →
      parse u.render = .ok u := by
  constructor
  · intro u h ⟨htrim, hopen, hclose⟩ hvalues
    refine h.parse_render (HostPort.stable_of_trim htrim hopen hclose) fun p hp => ?_
    obtain ⟨k, v?⟩ := p
    cases v? with
    | none => rfl
    | some v =>
      obtain ⟨hblank, hfirst, hlast⟩ := hvalues _ hp v rfl
      exact congrArg (fun w => (k, some w)) (Params.reread_of_ends hblank hfirst hlast)
  · intro t u h hquote hplace
    obtain ⟨p, ht, hapart, hread⟩ := parse_eq_ok_iff.1 h
    have hhost := (Parts.read_eq_ok_iff.1 hread).2.2.1
    have hwell := hplace p (parts?_eq_some_iff.2 ⟨ht, hapart⟩)
    exact (separable_of_parse h).parse_render (HostPort.stable_of_parse hhost hwell)
      (rereadParam_of_parse h hquote)

theorem round_trip_separators :
    let u : Uri := ⟨.sips, some ⟨"a@[".toList, some ":p@".toList⟩, ⟨"::1".toList, some 5061⟩,
      [([], some "a\"=b".toList), ("lr".toList, none)], some "?x;y".toList⟩
    let t : Text := " SIP: a@[::1]y :05 ;LR ;; x = 1?h ".toList
    let v : Uri := ⟨.sip, some ⟨" a".toList, none⟩, ⟨"::1".toList, none⟩,
      [("lr".toList, none), (['x'], some ['1'])], some ['h']⟩
    (u.Separable ∧ u.render = "sips:a@[::p@@[::1]:5061;=a\"=b;lr??x;y".toList ∧
        parse u.render = .ok u) ∧
      parse t = .ok v ∧ v.render = "sip: a@[::1];lr;x=1?h".toList ∧ parse v.render = .ok v := by
  intro u t v
  have hu : u.Separable := by decide
  have hvalues : ∀ p ∈ u.params, ∀ w ∈ p.2,
      Text.trim w = w ∧ w.head? ≠ some '"' ∧ w.getLast? ≠ some '"' := by decide
  have ht : parse t = .ok v := by decide
  have hplace : (parts? (Text.trim t)).map Parts.place = some "[::1]y :05 ".toList := by decide
  refine ⟨⟨hu, by decide, round_trip.1 u hu (by decide) hvalues⟩, ht, by decide,
    round_trip.2 t v ht (by decide) ?_⟩
  intro p hp
  rw [hp, Option.map_some, Option.some.injEq] at hplace
  rw [hplace]
  exact Or.inr ⟨"::1".toList, "y :05".toList, by decide, by decide, by decide⟩

end Uri
end SipTestbed
