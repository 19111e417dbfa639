import SipTestbed.Proofs.UriText
import SipTestbed.Proofs.ViaText

/-! Which texts name a host and a port. A host may stand in brackets, and behind it may stand a colon
and the port. All of an accepted text is of that form, with one exception: what follows the brackets
of a host and does not start with a colon is passed over. -/
namespace SipTestbed

namespace HostPort

inductive PortSpells : Option UInt16 → Text → Prop where
  | absent : PortSpells none []
  | decimal {n : UInt16} {sign ds : Text} : sign ∈ [[], ['+']] → Decimal.Writes n.toNat ds →
      PortSpells (some n) (':' :: (sign ++ ds))

/-- How a host and a port are written: `h`, `h:port`, `[h]` or `[h]:port`. -/
inductive Spells (a : HostPort) : Text → Prop where
  | plain {s : Text} : PortSpells a.port s → Spells a (a.host ++ s)
  | bracketed {s : Text} : PortSpells a.port s → Spells a ('[' :: (a.host ++ ']' :: s))

/-- A host in brackets and something behind them that does not start with a colon. -/
def Overhangs (host t : Text) : Prop :=
  ']' ∉ host ∧ ∃ r, t = '[' :: (host ++ ']' :: r) ∧ r ≠ [] ∧ r.head? ≠ some ':'

/-- Where reading takes the end of the host to be: at the first bracket that closes, if one opens
in front, and else at the last colon. -/
def EndsAt (a : HostPort) (t : Text) : Prop :=
  if t.head? = some '[' then ']' ∉ a.host ∧ ∃ r, t = '[' :: (a.host ++ ']' :: r)
  else a.port = none → ':' ∉ a.host

theorem PortSpells.not_mem {p : Option UInt16} {s : Text} (h : PortSpells p s) {c : Char}
    (hcolon : c ≠ ':') (hplus : c ≠ '+') (hdigit : c.isDigit = false) : c ∉ s := by
  cases h with
  | absent => exact List.not_mem_nil
  | @decimal n sign ds hsign hds =>
    have hsign' : c ∉ sign := by
      simp only [List.mem_cons, List.not_mem_nil, or_false] at hsign
      obtain rfl | rfl := hsign <;> simp [hplus]
    have hds' : c ∉ ds := by
      intro hc
      rw [hds.isDigit c hc] at hdigit
      cases hdigit
    simp [hcolon, hsign', hds']

theorem PortSpells.head? {p : Option UInt16} {s : Text} (h : PortSpells p s) (hs : s ≠ []) :
    s.head? = some ':' := by
  cases h with
  | absent => exact absurd rfl hs
  | decimal => rfl

theorem readPort_eq_ok_iff {port : Option Text} {p : Option UInt16} :
    readPort port = .ok p ↔ PortSpells p (port.elim [] (':' :: ·)) := by
  cases port with
  | none =>
    constructor
    · intro h
      cases h
      exact .absent
    · intro h
      cases h
      rfl
  | some t =>
    rw [readPort]
    constructor
    · intro h
      split at h
      · rename_i n hn
        cases h
        obtain ⟨sign, ds, rfl, hsign, hds⟩ := Decimal.readU16?_eq_some_iff.1 hn
        exact .decimal hsign hds
      · cases h
    · intro h
      cases h with
      | @decimal n sign ds hsign hds =>
        rw [Decimal.readU16?_eq_some_iff.2 ⟨sign, ds, rfl, hsign, hds⟩]

variable {a : HostPort} {t s : Text}

theorem head?_of_spells (ht : t.head? ≠ some '[') (h : a.Spells t) :
    ∃ s, t = a.host ++ s ∧ PortSpells a.port s := by
  cases h with
  | plain hport => exact ⟨_, rfl, hport⟩
  | bracketed => exact absurd rfl ht

theorem portSpells_of_spells (hclose : ']' ∉ a.host) (h : a.Spells ('[' :: (a.host ++ ']' :: s))) :
    PortSpells a.port s := by
  generalize ht : '[' :: (a.host ++ ']' :: s) = t at h
  cases h with
  | @plain s' hport =>
    have hin : ']' ∈ a.host ++ s' := ht ▸ by simp
    obtain hin | hin := List.mem_append.1 hin
    · exact absurd hin hclose
    · exact absurd hin (hport.not_mem (by decide) (by decide) (by decide))
  | bracketed hport =>
    obtain rfl := (List.cons.inj (List.append_cancel_left (List.cons.inj ht).2)).2
    exact hport

theorem not_spells_of_overhangs (h : Overhangs a.host t) : ¬ a.Spells t := by
  obtain ⟨hclose, r, rfl, hne, hcolon⟩ := h
  intro hspells
  exact hcolon ((portSpells_of_spells hclose hspells).head? hne)

theorem readPort_afterBracket_iff {p : Option UInt16} :
    readPort (afterBracket s) = .ok p ↔
      PortSpells p s ∨ (p = none ∧ s ≠ [] ∧ s.head? ≠ some ':') := by
  rw [readPort_eq_ok_iff]
  unfold afterBracket
  split
  · simp
  · rename_i hcolon
    constructor
    · intro h
      cases h
      cases s with
      | nil => exact Or.inl .absent
      | cons c r =>
        refine Or.inr ⟨rfl, List.cons_ne_nil c r, fun hc => ?_⟩
        exact hcolon r (by rw [Option.some.inj hc])
    · rintro (h | ⟨rfl, -, -⟩)
      · cases h with
        | absent => exact .absent
        | decimal => exact absurd rfl (hcolon _)
      · exact .absent

theorem split_plain_iff (ht : t.head? ≠ some '[') :
    (∃ port, split t = .ok (a.host, port) ∧ readPort port = .ok a.port) ↔
      (a.port = none → ':' ∉ a.host) ∧ ∃ s, t = a.host ++ s ∧ PortSpells a.port s := by
  obtain ⟨host, p⟩ := a
  rw [split_eq_of_plain ht]
  constructor
  · rintro ⟨port, hsplit, hport⟩
    rw [readPort_eq_ok_iff] at hport
    cases hcut : Text.cutLast? ':' t with
    | none =>
      rw [hcut] at hsplit
      cases hsplit
      exact ⟨fun _ => Text.cutLast?_eq_none_iff.1 hcut, [], (List.append_nil _).symm, hport⟩
    | some cut =>
      obtain ⟨front, digits⟩ := cut
      rw [hcut] at hsplit
      cases hsplit
      refine ⟨?_, _, (Text.cutLast?_eq_some_iff.1 hcut).1, hport⟩
      rintro rfl
      cases hport
  · rintro ⟨hhost, s, rfl, hport⟩
    cases hport with
    | absent =>
      rw [List.append_nil, Text.cutLast?_eq_none_iff.2 (hhost rfl)]
      exact ⟨none, rfl, rfl⟩
    | @decimal n sign ds hsign hds =>
      have hcolon : ':' ∉ sign ++ ds := by
        rw [List.mem_append, not_or]
        refine ⟨fun hc => ?_, fun hc => ?_⟩
        · simp only [List.mem_cons, List.not_mem_nil, or_false] at hsign
          obtain rfl | rfl := hsign <;> cases hc
          contradiction
        · cases hds.isDigit ':' hc
      rw [Text.cutLast?_eq_some_iff.2 ⟨rfl, hcolon⟩]
      exact ⟨some (sign ++ ds), rfl, readPort_eq_ok_iff.2 (.decimal hsign hds)⟩

theorem split_bracket_iff (hb : t.head? = some '[') :
    (∃ port, split t = .ok (a.host, port) ∧ readPort port = .ok a.port) ↔
      ']' ∉ a.host ∧ ∃ s, t = '[' :: (a.host ++ ']' :: s) ∧
        (PortSpells a.port s ∨ (a.port = none ∧ s ≠ [] ∧ s.head? ≠ some ':')) := by
  obtain ⟨r, rfl⟩ := List.head?_eq_some_iff.1 hb
  constructor
  · rintro ⟨port, hsplit, hport⟩
    obtain ⟨hclose, s, rfl⟩ := bracket_of_split hsplit
    rw [split_eq_of_bracket hclose] at hsplit
    cases hsplit
    exact ⟨hclose, s, rfl, readPort_afterBracket_iff.1 hport⟩
  · rintro ⟨hclose, s, ht, hport⟩
    rw [ht, split_eq_of_bracket hclose]
    exact ⟨_, rfl, readPort_afterBracket_iff.2 hport⟩

theorem parse_eq_ok_iff_spells : parse t = .ok a ↔
    a.host ≠ [] ∧ a.EndsAt (Text.trim t) ∧
      (a.Spells (Text.trim t) ∨ (a.port = none ∧ Overhangs a.host (Text.trim t))) := by
  rw [parse_eq_ok_iff]
  refine and_congr_right fun _ => ?_
  generalize Text.trim t = t
  by_cases hb : t.head? = some '['
  · rw [split_bracket_iff hb, EndsAt, if_pos hb]
    constructor
    · rintro ⟨hclose, s, rfl, hport | ⟨hnone, hs⟩⟩
      · exact ⟨⟨hclose, s, rfl⟩, Or.inl (.bracketed hport)⟩
      · exact ⟨⟨hclose, s, rfl⟩, Or.inr ⟨hnone, hclose, s, rfl, hs⟩⟩
    · rintro ⟨⟨hclose, s, rfl⟩, hspells | ⟨hnone, -, s', ht, hs⟩⟩
      · exact ⟨hclose, s, rfl, Or.inl (portSpells_of_spells hclose hspells)⟩
      · exact ⟨hclose, s', ht, Or.inr ⟨hnone, hs⟩⟩
  · rw [split_plain_iff hb, EndsAt, if_neg hb]
    refine and_congr_right fun _ => ⟨?_, ?_⟩
    · rintro ⟨s, rfl, hport⟩
      exact Or.inl (.plain hport)
    · rintro (hspells | ⟨-, -, s, rfl, -⟩)
      · exact head?_of_spells hb hspells
      · exact absurd rfl hb

theorem spells_iff_of_parse (h : parse t = .ok a) :
    a.host ≠ [] ∧ (a.Spells (Text.trim t) ↔ ¬ Overhangs a.host (Text.trim t)) := by
  obtain ⟨hne, -, hforms⟩ := parse_eq_ok_iff_spells.1 h
  refine ⟨hne, fun hspells hover => not_spells_of_overhangs hover hspells, fun hover => ?_⟩
  obtain hspells | ⟨-, hover'⟩ := hforms
  · exact hspells
  · exact absurd hover' hover

/-- The text of the host and the port of an accepted URI or Via is one of the four written forms,
with the host and the port that come out, exactly if no brackets have anything but a port behind
them. For a text of a host and a port alone this says which are accepted, and with what result. -/
theorem whole_iff_not_overhangs (t : Text) :
    (∀ u, Uri.parse t = .ok u → ∃ p, Uri.parts? (Text.trim t) = some p ∧ u.host ≠ [] ∧
      (u.hostPort.Spells (Text.trim p.place) ↔ ¬ Overhangs u.host (Text.trim p.place))) ∧
    (∀ v, Via.parse t = .ok v → ∃ place, Via.place? t = some place ∧ v.sentBy.host ≠ [] ∧
      (v.sentBy.Spells place ↔ ¬ Overhangs v.sentBy.host place)) ∧
    ∀ a, parse t = .ok a ↔ a.host ≠ [] ∧ a.EndsAt (Text.trim t) ∧
      (a.Spells (Text.trim t) ∨ (a.port = none ∧ Overhangs a.host (Text.trim t))) := by
  refine ⟨fun u h => ?_, fun v h => ?_, fun a => parse_eq_ok_iff_spells⟩
  · obtain ⟨p, ht, hapart, hread⟩ := Uri.parse_eq_ok_iff.1 h
    obtain ⟨-, -, hplace, -, -⟩ := Uri.Parts.read_eq_ok_iff.1 hread
    exact ⟨p, Uri.parts?_eq_some_iff.2 ⟨ht, hapart⟩, spells_iff_of_parse hplace⟩
  · obtain ⟨place, ht, hplace⟩ := Via.place?_of_parse h
    exact ⟨Text.trim place, ht, spells_iff_of_parse hplace⟩

theorem whole_iff_not_overhangs_signed :
    let u : Uri :=
      ⟨.sip, some ⟨['a'], none⟩, ⟨"::1".toList, some 5070⟩, [("lr".toList, none)], none⟩
    Uri.parse "sip:a@ [::1]:+05070 ;lr".toList = .ok u ∧
      u.hostPort.Spells "[::1]:+05070".toList := by
  intro u
  have hu : Uri.parse "sip:a@ [::1]:+05070 ;lr".toList = .ok u := by decide
  obtain ⟨p, hp, -, hspells⟩ := (whole_iff_not_overhangs _).1 u hu
  have hplace : (Uri.parts? (Text.trim "sip:a@ [::1]:+05070 ;lr".toList)).map
      (fun p => Text.trim p.place) = some "[::1]:+05070".toList := by decide
  rw [hp, Option.map_some, Option.some.injEq] at hplace
  rw [hplace] at hspells
  refine ⟨hu, hspells.2 ?_⟩
  rintro ⟨-, r, hr, -, hcolon⟩
  have hrest : "[::1]:+05070".toList = '[' :: (u.host ++ ']' :: ":+05070".toList) := by decide
  obtain rfl := (List.cons.inj (List.append_cancel_left (List.cons.inj (hrest.symm.trans hr)).2)).2
  exact hcolon rfl

/-- Digits behind the brackets without a colon are passed over: the port is lost. -/
theorem overhang_passed_over :
    let place := "[::1]5070".toList
    ∃ u v, Uri.parse ("sip:alice@".toList ++ place) = .ok u ∧
      (Uri.parts? ("sip:alice@".toList ++ place)).map Uri.Parts.place = some place ∧
      Via.parse ("SIP/2.0/UDP ".toList ++ place) = .ok v ∧
      Via.place? ("SIP/2.0/UDP ".toList ++ place) = some place ∧
      u.hostPort = ⟨"::1".toList, none⟩ ∧ v.sentBy = ⟨"::1".toList, none⟩ ∧
      ¬ u.hostPort.Spells place ∧ ¬ v.sentBy.Spells place := by
  have hover : Overhangs "::1".toList "[::1]5070".toList :=
    ⟨by decide, "5070".toList, by decide, by decide, by decide⟩
  have hnot : ¬ (⟨"::1".toList, none⟩ : HostPort).Spells "[::1]5070".toList :=
    not_spells_of_overhangs hover
  exact ⟨⟨.sip, some ⟨"alice".toList, none⟩, ⟨"::1".toList, none⟩, [], none⟩,
    ⟨"UDP".toList, ⟨"::1".toList, none⟩, []⟩, by decide, by decide, by decide, by decide, rfl, rfl,
    hnot, hnot⟩

end HostPort
end SipTestbed
