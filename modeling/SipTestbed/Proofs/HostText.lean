import SipTestbed.HostPort
import SipTestbed.Proofs.IpText
import SipTestbed.Proofs.Text

/-! A printed host and port are read back as they were, unless the host has lost its brackets: they
are printed around colons only, while reading takes them off from around anything. -/
namespace SipTestbed

theorem map_eq_ok_iff {ε α β : Type} {f : α → β} {x : Except ε α} {b : β} :
    x.map f = .ok b ↔ ∃ a, x = .ok a ∧ f a = b := by
  cases x <;> simp [Except.map]

namespace HostPort

def afterBracket : Text → Option Text
  | ':' :: p => some p
  | _ => none

theorem split_eq_of_bracket {h r : Text} (hh : ']' ∉ h) :
    split ('[' :: (h ++ ']' :: r)) = .ok (h, afterBracket r) := by
  have hcut : Text.cut? ']' (h ++ ']' :: r) = some (h, r) := Text.cut?_eq_some_iff.2 ⟨rfl, hh⟩
  rw [split, hcut]
  cases r with
  | nil => rfl
  | cons c r =>
    by_cases hc : c = ':'
    · subst hc
      rfl
    · rw [afterBracket.eq_def]
      simp [hc]

theorem bracket_of_split {r h : Text} {p : Option Text} (hs : split ('[' :: r) = .ok (h, p)) :
    ']' ∉ h ∧ ∃ s, r = h ++ ']' :: s := by
  cases hcut : Text.cut? ']' r with
  | none =>
    rw [split, hcut] at hs
    cases hs
  | some hr =>
    obtain ⟨h', s⟩ := hr
    obtain ⟨hr', hh'⟩ := Text.cut?_eq_some_iff.1 hcut
    rw [hr', split_eq_of_bracket hh'] at hs
    obtain ⟨rfl, -⟩ := Prod.mk.inj (Except.ok.inj hs)
    exact ⟨hh', s, hr'⟩

theorem split_eq_of_plain {t : Text} (h : t.head? ≠ some '[') :
    split t = .ok ((Text.cutLast? ':' t).elim (t, none) fun hp => (hp.1, some hp.2)) := by
  unfold split
  split
  · simp at h
  · cases Text.cutLast? ':' t <;> rfl

theorem parse_eq_ok_iff {t : Text} {a : HostPort} : parse t = .ok a ↔
    a.host ≠ [] ∧
      ∃ port, split (Text.trim t) = .ok (a.host, port) ∧ readPort port = .ok a.port := by
  obtain ⟨host, port⟩ := a
  rw [parse]
  cases hs : split (Text.trim t) with
  | error e => simp [bind, Except.bind]
  | ok hp =>
    obtain ⟨host', port'⟩ := hp
    by_cases hne : host' = []
    · simp only [hne, bind, Except.bind, List.isEmpty_nil, if_true]
      grind
    · cases hr : readPort port' with
      | error e => simp [bind, Except.bind, hne, hr]
      | ok p =>
        simp only [bind, Except.bind, hne, hr, pure, Except.pure, List.isEmpty_iff]
        grind

theorem host_ne_nil_of_parse {t : Text} {a : HostPort} (h : parse t = .ok a) : a.host ≠ [] :=
  (parse_eq_ok_iff.1 h).1

theorem mem_of_split {t host : Text} {port : Option Text} {c : Char}
    (h : split t = .ok (host, port)) (hc : c ∈ host) : c ∈ t := by
  by_cases hb : t.head? = some '['
  · obtain ⟨r, rfl⟩ := List.head?_eq_some_iff.1 hb
    obtain ⟨-, s, rfl⟩ := bracket_of_split h
    simp [hc]
  · rw [split_eq_of_plain hb, Except.ok.injEq] at h
    cases hcut : Text.cutLast? ':' t with
    | none =>
      rw [hcut] at h
      cases h
      exact hc
    | some ab =>
      rw [hcut] at h
      cases h
      simp [(Text.cutLast?_eq_some_iff.1 hcut).1, hc]

theorem mem_of_parse {t : Text} {a : HostPort} {c : Char} (h : parse t = .ok a)
    (hc : c ∈ a.host) : c ∈ t := by
  obtain ⟨-, port, hs, -⟩ := parse_eq_ok_iff.1 h
  exact Text.mem_of_mem_trimBy (mem_of_split hs hc)

def portText : Option UInt16 → Text
  | some p => ':' :: Decimal.write p.toNat
  | none => []

theorem render_eq (a : HostPort) : a.render = renderHost a.host ++ portText a.port := by
  rw [render]
  cases a.port <;> rfl

theorem mem_portText {c : Char} {p : Option UInt16} (h : c ∈ portText p) :
    c = ':' ∨ c.isDigit = true := by
  cases p with
  | none => cases h
  | some p =>
    cases List.mem_cons.1 h with
    | inl h => exact Or.inl h
    | inr h => exact Or.inr (Decimal.isDigit_of_mem_write h)

theorem not_mem_portText {c : Char} (hc : c ≠ ':') (hd : c.isDigit = false) (p : Option UInt16) :
    c ∉ portText p := by
  intro h
  cases mem_portText h with
  | inl h => exact hc h
  | inr h => simp [h] at hd

theorem isBlank_of_mem_portText {c : Char} {p : Option UInt16} (h : c ∈ portText p) :
    Text.isBlank c = false := by
  cases mem_portText h with
  | inl h => exact h ▸ rfl
  | inr h => exact Text.isBlank_of_isDigit h

theorem readPort_write (p : UInt16) : readPort (some (Decimal.write p.toNat)) = .ok (some p) := by
  rw [readPort, Decimal.readU16?_write]

theorem readPort_afterBracket (p : Option UInt16) :
    readPort (afterBracket (portText p)) = .ok p := by
  cases p with
  | none => rfl
  | some p => exact readPort_write p

theorem render_of_colon {a : HostPort} (h : ':' ∈ a.host) :
    a.render = '[' :: (a.host ++ ']' :: portText a.port) := by
  rw [render_eq, renderHost, if_pos (by simpa using h)]
  simp

theorem render_of_no_colon {a : HostPort} (h : ':' ∉ a.host) :
    a.render = a.host ++ portText a.port := by
  rw [render_eq, renderHost, if_neg (by simpa using h)]

theorem trim_render_of_colon {a : HostPort} (h : ':' ∈ a.host) : Text.trim a.render = a.render := by
  rw [render_of_colon h, ← List.cons_append, Text.trim_append_cons _ _ (by decide),
    Text.rdropWhile_of_all fun c hc => isBlank_of_mem_portText hc]
  rfl

theorem not_mem_render {c : Char} (hc : c ∉ ['[', ']', ':']) (hd : c.isDigit = false)
    {a : HostPort} (h : c ∉ a.host) : c ∉ a.render := by
  simp only [List.mem_cons, List.not_mem_nil, or_false, not_or] at hc
  have hport : c ∉ portText a.port := not_mem_portText hc.2.2 hd _
  by_cases hcolon : ':' ∈ a.host
  · simp [render_of_colon hcolon, h, hport, hc.1, hc.2.1]
  · simp [render_of_no_colon hcolon, h, hport]

/-- Its printed form tells where the host starts and ends. -/
def Stable (a : HostPort) : Prop :=
  if ':' ∈ a.host then ']' ∉ a.host
  else a.host.head? ≠ some '[' ∧ Text.trim a.render = a.render

instance (a : HostPort) : Decidable a.Stable :=
  inferInstanceAs (Decidable (if ':' ∈ a.host then _ else _))

theorem head?_trim_render {a : HostPort} (hcolon : ':' ∉ a.host) {port : Option Text}
    (h : split (Text.trim a.render) = .ok (a.host, port)) :
    (Text.trim a.render).head? ≠ some '[' := by
  intro hb
  obtain ⟨r, hr⟩ := List.head?_eq_some_iff.1 hb
  rw [hr] at h
  obtain ⟨-, s, rfl⟩ := bracket_of_split h
  have hport : (portText a.port).count '[' = 0 :=
    List.count_eq_zero.2 (not_mem_portText (by decide) (by decide) _)
  have hcount : (Text.trim a.render).count '[' ≤ a.render.count '[' :=
    (Text.trimBy_sublist _ _).count_le _
  rw [hr, render_of_no_colon hcolon, List.count_cons_self, List.count_append, List.count_append,
    hport] at hcount
  omega

theorem Stable.trim_render {a : HostPort} (h : a.Stable) : Text.trim a.render = a.render := by
  rw [Stable] at h
  split at h
  · rename_i hcolon
    exact trim_render_of_colon hcolon
  · exact h.2

theorem trim_append_portText (h : Text) (p : UInt16) :
    Text.trim (h ++ portText (some p)) = h.dropWhile Text.isBlank ++ portText (some p) := by
  rw [portText, Text.trim_append_cons _ _ (by decide),
    Text.rdropWhile_of_all fun c hc => Text.isBlank_of_isDigit (Decimal.isDigit_of_mem_write hc)]

theorem cutLast?_append_portText (h : Text) (p : UInt16) :
    Text.cutLast? ':' (h ++ portText (some p)) = some (h, Decimal.write p.toNat) :=
  Text.cutLast?_eq_some_iff.2 ⟨rfl, IpAddr.not_mem_write (by decide) _⟩

theorem parse_render {a : HostPort} (hne : a.host ≠ []) (h : a.Stable) :
    parse a.render = .ok a := by
  rw [parse_eq_ok_iff]
  refine ⟨hne, ?_⟩
  by_cases hcolon : ':' ∈ a.host
  · rw [Stable, if_pos hcolon] at h
    rw [trim_render_of_colon hcolon, render_of_colon hcolon]
    exact ⟨_, split_eq_of_bracket h, readPort_afterBracket a.port⟩
  · rw [Stable, if_neg hcolon] at h
    obtain ⟨hbracket, htrim⟩ := h
    have hrender := render_of_no_colon hcolon
    have hplain : a.render.head? ≠ some '[' := by
      rwa [hrender, List.head?_append_of_ne_nil _ hne]
    rw [htrim, split_eq_of_plain hplain, hrender]
    cases a.port with
    | none =>
      have hcut : Text.cutLast? ':' a.host = none := Text.cutLast?_eq_none_iff.2 hcolon
      exact ⟨none, by rw [portText, List.append_nil, hcut, Option.elim_none], rfl⟩
    | some p =>
      exact ⟨_, by rw [cutLast?_append_portText, Option.elim_some], readPort_write p⟩

theorem stable_of_parse_render {a : HostPort} (h : parse a.render = .ok a) : a.Stable := by
  obtain ⟨-, port, hs, -⟩ := parse_eq_ok_iff.1 h
  by_cases hcolon : ':' ∈ a.host
  · rw [Stable, if_pos hcolon]
    rw [trim_render_of_colon hcolon, render_of_colon hcolon] at hs
    exact (bracket_of_split hs).1
  · have hrender := render_of_no_colon hcolon
    have hplain := head?_trim_render hcolon hs
    rw [split_eq_of_plain hplain, Except.ok.injEq] at hs
    have htrim : Text.trim a.render = a.render := by
      rw [hrender] at hs ⊢
      cases hp : a.port with
      | none =>
        have hcut : Text.cutLast? ':' (Text.trim a.host) = none :=
          Text.cutLast?_eq_none_iff.2 fun hm => hcolon (Text.mem_of_mem_trimBy hm)
        rw [hp, portText, List.append_nil, hcut, Option.elim_none, Prod.mk.injEq] at hs
        rw [portText, List.append_nil, hs.1]
      | some p =>
        rw [hp, trim_append_portText, cutLast?_append_portText, Option.elim_some,
          Prod.mk.injEq] at hs
        have hhost : a.host.dropWhile Text.isBlank = a.host := hs.1
        rw [trim_append_portText, hhost]
    rw [Stable, if_neg hcolon]
    refine ⟨?_, htrim⟩
    rw [htrim, hrender] at hplain
    cases hhost : a.host with
    | nil => simp
    | cons c r => simpa [hhost] using hplain

/-- Exactly the stable ones are read back. -/
theorem parse_render_iff {a : HostPort} (hne : a.host ≠ []) : parse a.render = .ok a ↔ a.Stable :=
  ⟨stable_of_parse_render, parse_render hne⟩

/-- In no brackets, or in those of a literal with colons. -/
def WellBracketed (t : Text) : Prop :=
  ('[' ∉ t ∧ ']' ∉ t) ∨ ∃ h r, t = '[' :: (h ++ ']' :: r) ∧ ']' ∉ h ∧ ':' ∈ h

theorem render_of_plain {t : Text} {a : HostPort} (h : parse t = .ok a)
    (hplain : (Text.trim t).head? ≠ some '[') (hcolon : ':' ∉ a.host) :
    Text.trim a.render = a.render := by
  obtain ⟨hne, port, hs, hport⟩ := parse_eq_ok_iff.1 h
  rw [split_eq_of_plain hplain, Except.ok.injEq] at hs
  rw [render_of_no_colon hcolon]
  cases hcut : Text.cutLast? ':' (Text.trim t) with
  | none =>
    rw [hcut, Option.elim_none, Prod.mk.injEq] at hs
    rw [← hs.2, readPort, Except.ok.injEq] at hport
    rw [← hs.1, ← hport, portText, List.append_nil, Text.trim_trim]
  | some hp =>
    obtain ⟨host, digits⟩ := hp
    rw [hcut, Option.elim_some, Prod.mk.injEq] at hs
    obtain ⟨hhost, rfl⟩ := hs
    have htext : Text.trim t = a.host ++ ':' :: digits :=
      hhost ▸ (Text.cutLast?_eq_some_iff.1 hcut).1
    -- The host is not blank in front, since the text that it starts is not.
    have hfront : a.host.dropWhile Text.isBlank = a.host := by
      rw [List.dropWhile_eq_self_iff]
      intro hl
      have hhead : (Text.trim t).head? = some a.host[0] := by
        rw [htext, List.head?_append_of_ne_nil _ hne, List.head?_eq_getElem?,
          List.getElem?_eq_getElem hl]
      have hblank : Text.isBlank a.host[0] = false := Text.head?_trimBy hhead
      simp [hblank]
    cases hp : a.port with
    | none =>
      rw [readPort, hp] at hport
      split at hport <;> cases hport
    | some p => rw [trim_append_portText, hfront]

theorem stable_of_parse {t : Text} {a : HostPort} (h : parse t = .ok a)
    (ht : WellBracketed (Text.trim t)) : a.Stable := by
  obtain ⟨-, port, hs, -⟩ := parse_eq_ok_iff.1 h
  obtain ⟨hopen, hclose⟩ | ⟨host, r, htext, hclose, hcolon⟩ := ht
  · have hplain : (Text.trim t).head? ≠ some '[' := fun hb => hopen (List.mem_of_head? hb)
    rw [Stable]
    split
    · exact fun hm => hclose (mem_of_split hs hm)
    · rename_i hcolon
      exact ⟨fun hb => hopen (mem_of_split hs (List.mem_of_head? hb)),
        render_of_plain h hplain hcolon⟩
  · rw [htext, split_eq_of_bracket hclose, Except.ok.injEq, Prod.mk.injEq] at hs
    rw [Stable, ← hs.1, if_pos hcolon]
    exact hclose

theorem stable_of_trim {a : HostPort} (htrim : Text.trim a.host = a.host) (hopen : '[' ∉ a.host)
    (hclose : ']' ∉ a.host) : a.Stable := by
  rw [Stable]
  split
  · exact hclose
  · rename_i hcolon
    refine ⟨fun hb => hopen (List.mem_of_head? hb), ?_⟩
    rw [render_of_no_colon hcolon]
    cases a.port with
    | none => rw [portText, List.append_nil, htrim]
    | some p => rw [trim_append_portText, Text.dropWhile_of_trim htrim]

theorem stable_of_ip {a : HostPort} {ip : IpAddr} (h : a.host = ip.render) : a.Stable := by
  have hnot {c : Char} (hd : Hex.isLowerDigit c = false) (h1 : c ≠ '.') (h2 : c ≠ ':') :
      c ∉ a.host := h ▸ IpAddr.not_mem_render hd h1 h2 ip
  rw [Stable]
  split
  · exact hnot (by decide) (by decide) (by decide)
  · rename_i hcolon
    refine ⟨fun hb => hnot (by decide) (by decide) (by decide) (List.mem_of_head? hb), ?_⟩
    rw [render_of_no_colon hcolon]
    apply Text.trim_of_all
    intro c hc
    cases List.mem_append.1 hc with
    | inl hc => exact IpAddr.isBlank_of_mem_render (h ▸ hc)
    | inr hc => exact isBlank_of_mem_portText hc

end HostPort
end SipTestbed
