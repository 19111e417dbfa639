import SipTestbed.Address
import SipTestbed.Proofs.UriText

/-! The two forms of an address. The first `<` of a text and the first `>` after it are taken for
the brackets of the URI, in quotes or not, so that a quoted name is read as it was written exactly
if it holds no `<`. Parameters put behind an address are its header parameters in either form. -/
namespace SipTestbed

namespace Text

theorem trim_dropWhile (t : Text) : trim (t.dropWhile isBlank) = trim t := by
  rw [trim, trimBy, List.dropWhile_idempotent, trim, trimBy]

theorem unquote_quoted {t : Text} (h : '"' ∉ t) : unquote ('"' :: (t ++ ['"'])) = t := by
  cases t with
  | nil => rfl
  | cons c t =>
    have hc : c ≠ '"' := fun he => h (he ▸ List.mem_cons_self)
    have hfront : ('"' :: (c :: t ++ ['"'])).dropWhile (· == '"') = c :: t ++ ['"'] := by
      simp [List.dropWhile, hc]
    have hback : (c :: t).rdropWhile (· == '"') = c :: t := by
      rw [List.rdropWhile_eq_self_iff]
      intro hne hlast
      exact h (beq_iff_eq.1 hlast ▸ List.getLast_mem hne)
    rw [unquote, trimBy_eq, hfront, List.rdropWhile_concat_pos _ _ _ (by simp), hback]

end Text

namespace Params

theorem parse_append (s t : Text) :
    Params.parse (s ++ ';' :: t) = Params.parse s ++ Params.parse t := by
  rw [Params.parse, List.splitOn_append_cons_self, List.filterMap_append]
  rfl

theorem parse_semicolon (t : Text) : Params.parse (';' :: t) = Params.parse t := parse_append [] t

end Params

namespace Uri

theorem parse_dropWhile (t : Text) : parse (t.dropWhile Text.isBlank) = parse t := by
  rw [parse_eq, parse_eq, Text.trim_dropWhile]

theorem parse_trim (t : Text) : parse (Text.trim t) = parse t := by
  rw [parse_eq, parse_eq, Text.trim_trim]

theorem params_of_not_mem {t : Text} (ht : ';' ∉ t) {u : Uri} (h : parse t = .ok u) :
    u.params = [] := by
  obtain ⟨p, htext, -, hread⟩ := parse_eq_ok_iff.1 h
  obtain ⟨-, -, -, hparams, -⟩ := Parts.read_eq_ok_iff.1 hread
  cases hp : p.params with
  | none => rw [hparams, hp, Option.map_none, Option.getD_none]
  | some params =>
    have hmem : ';' ∈ p.text := by simp [Parts.text, hp, led]
    rw [← htext] at hmem
    exact absurd (Text.mem_of_mem_trimBy hmem) ht

end Uri

namespace Address

variable {name u : Text}

theorem parse_bare {p : Option Text} (hopen : '<' ∉ u ++ Uri.led ';' p) (hu : ';' ∉ u) :
    parse (u ++ Uri.led ';' p) =
      (Uri.parse u).map fun uri => ⟨[], uri, (p.map Params.parse).getD []⟩ := by
  have hcut : Text.cut? '<' (Text.trim (u ++ Uri.led ';' p)) = none :=
    Text.cut?_eq_none_iff.2 fun hm => hopen (Text.mem_of_mem_trimBy hm)
  rw [parse, hcut, parseBare]
  cases p with
  | none =>
    have hsemi : Text.cut? ';' (Text.trim u) = none :=
      Text.cut?_eq_none_iff.2 fun hm => hu (Text.mem_of_mem_trimBy hm)
    simp only [Uri.led, List.append_nil, hsemi, Uri.parse_trim]
    cases Uri.parse u <;> rfl
  | some p =>
    have hfront : ';' ∉ u.dropWhile Text.isBlank := fun hm => hu ((List.dropWhile_sublist _).mem hm)
    have hsemi : Text.cut? ';' (Text.trim (u ++ ';' :: p)) =
        some (u.dropWhile Text.isBlank, p.rdropWhile Text.isBlank) := by
      rw [Text.trim_append_cons _ _ (by decide)]
      exact Text.cut?_eq_some_iff.2 ⟨rfl, hfront⟩
    simp only [Uri.led, hsemi, Uri.parse_dropWhile, Params.parse_rdropWhile]
    cases Uri.parse u <;> rfl

theorem cut?_open (hname : '<' ∉ name) (t : Text) : Text.cut? '<' (Text.trim (name ++ '<' :: t)) =
    some (name.dropWhile Text.isBlank, t.rdropWhile Text.isBlank) := by
  have hfront : '<' ∉ name.dropWhile Text.isBlank :=
    fun hm => hname ((List.dropWhile_sublist _).mem hm)
  rw [Text.trim_append_cons _ _ (by decide)]
  exact Text.cut?_eq_some_iff.2 ⟨rfl, hfront⟩

theorem parse_bracketed (hname : '<' ∉ name) (hu : '>' ∉ u) (p : Text) :
    parse (name ++ '<' :: (u ++ '>' :: p)) =
      (Uri.parse u).map fun uri => ⟨Text.unquote (Text.trim name), uri, Params.parse p⟩ := by
  have hclose : Text.cut? '>' ((u ++ '>' :: p).rdropWhile Text.isBlank) =
      some (u, p.rdropWhile Text.isBlank) := by
    rw [Text.rdropWhile_append_cons _ _ (by decide)]
    exact Text.cut?_eq_some_iff.2 ⟨rfl, hu⟩
  rw [parse, cut?_open hname]
  simp only [hclose, Text.trim_dropWhile, Params.parse_rdropWhile]
  cases Uri.parse u <;> rfl

theorem parse_unterminated (hname : '<' ∉ name) {t : Text} (ht : '>' ∉ t) :
    parse (name ++ '<' :: t) = .error (.unterminatedAddress (Text.trim (name ++ '<' :: t))) := by
  have hclose : Text.cut? '>' (t.rdropWhile Text.isBlank) = none :=
    Text.cut?_eq_none_iff.2 fun hm => ht ((List.rdropWhile_prefix _ _).mem hm)
  rw [parse, cut?_open hname]
  simp only [hclose]

theorem forms_of_parse {t : Text} {a : Address} (h : parse t = .ok a) :
    (∃ u p, t = u ++ Uri.led ';' p ∧ '<' ∉ t ∧ ';' ∉ u ∧ Uri.parse u = .ok a.uri ∧
        a.displayName = [] ∧ a.params = (p.map Params.parse).getD []) ∨
      ∃ name u p, t = name ++ '<' :: (u ++ '>' :: p) ∧ '<' ∉ name ∧ '>' ∉ u ∧
        Uri.parse u = .ok a.uri ∧ a.displayName = Text.unquote (Text.trim name) ∧
        a.params = Params.parse p := by
  cases hopen : Text.cut? '<' t with
  | none =>
    left
    obtain ⟨u, p, hcut⟩ : ∃ u p, Uri.cutOff (Text.cut? ';' t) t = (u, p) := ⟨_, _, rfl⟩
    obtain ⟨rfl, hu⟩ := Uri.cutOff_cut?_iff.1 hcut
    have hbare := Text.cut?_eq_none_iff.1 hopen
    rw [parse_bare hbare hu] at h
    obtain ⟨uri, huri, rfl⟩ := map_eq_ok_iff.1 h
    exact ⟨u, p, rfl, hbare, hu, huri, rfl, rfl⟩
  | some nr =>
    right
    obtain ⟨name, rest⟩ := nr
    obtain ⟨rfl, hname⟩ := Text.cut?_eq_some_iff.1 hopen
    cases hclose : Text.cut? '>' rest with
    | none =>
      rw [parse_unterminated hname (Text.cut?_eq_none_iff.1 hclose)] at h
      cases h
    | some up =>
      obtain ⟨u, p⟩ := up
      obtain ⟨rfl, hu⟩ := Text.cut?_eq_some_iff.1 hclose
      rw [parse_bracketed hname hu] at h
      obtain ⟨uri, huri, rfl⟩ := map_eq_ok_iff.1 h
      exact ⟨name, u, p, rfl, hname, hu, huri, rfl, rfl⟩

theorem uri_of_parse {t : Text} {a : Address} (h : parse t = .ok a) :
    ∃ u, Uri.parse u = .ok a.uri := by
  obtain ⟨u, p, -, -, -, hu, -⟩ | ⟨name, u, p, -, -, -, hu, -⟩ := forms_of_parse h
  · exact ⟨u, hu⟩
  · exact ⟨u, hu⟩

theorem printable_of_parse {t : Text} {a : Address} (h : parse t = .ok a) :
    ∀ p ∈ a.params, Params.Printable p := by
  obtain ⟨u, p, -, -, -, -, -, hparams⟩ | ⟨name, u, p, -, -, -, -, -, hparams⟩ := forms_of_parse h
  · cases p with
    | none => simp [hparams]
    | some p => exact fun q hq => Params.printable_of_parse (hparams ▸ hq)
  · exact fun q hq => Params.printable_of_parse (hparams ▸ hq)

theorem not_mem_displayName {t : Text} {a : Address} (h : parse t = .ok a) :
    '<' ∉ a.displayName := by
  obtain ⟨u, p, -, -, -, -, hname, -⟩ | ⟨name, u, p, -, hopen, -, -, hname, -⟩ := forms_of_parse h
  · simp [hname]
  · rw [hname]
    exact fun hm => hopen (Text.mem_of_mem_trimBy (Text.mem_of_mem_trimBy hm))

theorem parse_append {t p : Text} {a : Address} (h : parse t = .ok a) (hp : '<' ∉ p) :
    parse (t ++ ';' :: p) = .ok { a with params := a.params ++ Params.parse p } := by
  obtain ⟨displayName, uri, params⟩ := a
  obtain ⟨u, q, rfl, hbare, hu, huri, rfl, rfl⟩ | ⟨name, u, q, rfl, hname, hu, huri, rfl, rfl⟩ :=
    forms_of_parse h
  · have hopen : '<' ∉ (u ++ Uri.led ';' q) ++ ';' :: p := by
      rw [List.mem_append, not_or]
      exact ⟨hbare, by simpa using hp⟩
    cases q with
    | none =>
      have hread := parse_bare (p := some p) (by simpa [Uri.led] using hopen) hu
      simpa [Uri.led, huri, Except.map] using hread
    | some q =>
      have hread := parse_bare (p := some (q ++ ';' :: p)) (by simpa [Uri.led] using hopen) hu
      simpa [Uri.led, huri, Params.parse_append, Except.map] using hread
  · have hread := parse_bracketed hname hu (q ++ ';' :: p)
    simpa [huri, Params.parse_append, Except.map] using hread

/-- Parameters behind an address are its own, with brackets around the URI or without, and those
that stand in the brackets are the URI's. -/
theorem params_owned :
    (∀ u p : Text, ';' ∉ u → '<' ∉ u → '>' ∉ u → '<' ∉ p →
      parse (u ++ ';' :: p) = parse ('<' :: (u ++ '>' :: ';' :: p)) ∧
        ∀ a, parse (u ++ ';' :: p) = .ok a → a.params = Params.parse p ∧ a.uri.params = []) ∧
      ∀ name u p : Text, '<' ∉ name → '>' ∉ u →
        ((∃ a, parse (name ++ '<' :: (u ++ '>' :: p)) = .ok a) ↔ ∃ uri, Uri.parse u = .ok uri) ∧
          ∀ a, parse (name ++ '<' :: (u ++ '>' :: p)) = .ok a →
            Uri.parse u = .ok a.uri ∧ a.params = Params.parse p := by
  constructor
  · intro u p hsemicolon hopen hclose hp
    have hbare : parse (u ++ ';' :: p) =
        (Uri.parse u).map fun uri => ⟨[], uri, Params.parse p⟩ :=
      parse_bare (p := some p) (by simp [Uri.led, hopen, hp]) hsemicolon
    have hbrackets : parse ('<' :: (u ++ '>' :: ';' :: p)) =
        (Uri.parse u).map fun uri => ⟨[], uri, Params.parse p⟩ := by
      have hread := parse_bracketed List.not_mem_nil hclose (';' :: p)
      rw [Params.parse_semicolon] at hread
      exact hread
    refine ⟨hbare.trans hbrackets.symm, ?_⟩
    intro a ha
    rw [hbare] at ha
    obtain ⟨uri, huri, rfl⟩ := map_eq_ok_iff.1 ha
    exact ⟨rfl, Uri.params_of_not_mem hsemicolon huri⟩
  · intro name u p hname hclose
    rw [parse_bracketed hname hclose]
    constructor
    · constructor
      · rintro ⟨a, ha⟩
        obtain ⟨uri, huri, -⟩ := map_eq_ok_iff.1 ha
        exact ⟨uri, huri⟩
      · rintro ⟨uri, huri⟩
        exact ⟨_, map_eq_ok_iff.2 ⟨uri, huri, rfl⟩⟩
    · intro a ha
      obtain ⟨uri, huri, rfl⟩ := map_eq_ok_iff.1 ha
      exact ⟨huri, rfl⟩

theorem params_owned_tags :
    let bob : Uri := ⟨.sip, some ⟨"bob".toList, none⟩, ⟨['b'], none⟩, [], some ['x']⟩
    let alice : Uri := ⟨.sip, some ⟨"alice".toList, none⟩, ⟨['a'], none⟩,
      [("tag".toList, some ['u'])], none⟩
    let tag (v : Text) : Param := ("tag".toList, some v)
    (parse " sip:bob@b?x; TAG = 1 ; >".toList = .ok ⟨[], bob, [tag ['1'], (['>'], none)]⟩ ∧
        parse "< sip:bob@b?x>; TAG = 1 ; >".toList = .ok ⟨[], bob, [tag ['1'], (['>'], none)]⟩) ∧
      parse "sip:@;lr".toList = parse "<sip:@>;lr".toList ∧
      (∃ a, parse "A <sip:alice@a;tag=u>;tag=h>".toList = .ok a ∧ a.uri = alice ∧
        a.params = [tag ['h', '>']]) := by
  intro bob alice tag
  have hbare : parse " sip:bob@b?x; TAG = 1 ; >".toList =
      .ok ⟨[], bob, [tag ['1'], (['>'], none)]⟩ := by decide
  have hboth := (params_owned.1 " sip:bob@b?x".toList " TAG = 1 ; >".toList (by decide)
    (by decide) (by decide) (by decide)).1
  have hnone := (params_owned.1 "sip:@".toList "lr".toList (by decide) (by decide) (by decide)
    (by decide)).1
  have halice : Uri.parse "sip:alice@a;tag=u".toList = .ok alice := by decide
  obtain ⟨hok, hparts⟩ := params_owned.2 "A ".toList "sip:alice@a;tag=u".toList
    ";tag=h>".toList (by decide) (by decide)
  obtain ⟨a, ha⟩ := hok.2 ⟨alice, halice⟩
  obtain ⟨huri, hparams⟩ := hparts a ha
  refine ⟨⟨hbare, hboth.symm.trans hbare⟩, hnone, a, ha, ?_, ?_⟩
  · rw [halice] at huri
    exact (Except.ok.inj huri).symm
  · rw [hparams]
    decide

/-- An address with a quoted name, as senders write it. -/
def quoted (name u p : Text) : Text := '"' :: name ++ "\" <".toList ++ u ++ ">;".toList ++ p

theorem quoted_eq (name u p : Text) :
    quoted name u p = ('"' :: (name ++ ['"', ' '])) ++ '<' :: (u ++ '>' :: ';' :: p) := by
  simp [quoted]

theorem parse_quoted_of_not_mem (hname : '"' ∉ name) (hopen : '<' ∉ name) (hu : '>' ∉ u)
    (p : Text) : parse (quoted name u p) =
      (Uri.parse u).map fun uri => ⟨name, uri, Params.parse p⟩ := by
  have hfront : '<' ∉ '"' :: (name ++ ['"', ' ']) := by simp [hopen]
  have htrim : Text.trim ('"' :: (name ++ ['"', ' '])) = '"' :: (name ++ ['"']) := by
    have htext : '"' :: (name ++ ['"', ' ']) = ('"' :: name) ++ '"' :: [' '] := rfl
    rw [htext, Text.trim_append_cons _ _ (by decide)]
    rfl
  rw [quoted_eq, parse_bracketed hfront hu, htrim, Text.unquote_quoted hname,
    Params.parse_semicolon]

theorem parse_quoted_of_mem {front back : Text} (hopen : '<' ∉ front) (hu : '>' ∉ u) (v p : Text) :
    parse (quoted (front ++ '<' :: (u ++ '>' :: back)) v p) = (Uri.parse u).map fun uri =>
      ⟨Text.unquote (Text.trim ('"' :: front)), uri,
        Params.parse (back ++ "\" <".toList ++ v ++ ">;".toList ++ p)⟩ := by
  have hfront : '<' ∉ '"' :: front := by simp [hopen]
  have htext : quoted (front ++ '<' :: (u ++ '>' :: back)) v p = ('"' :: front) ++
      '<' :: (u ++ '>' :: (back ++ "\" <".toList ++ v ++ ">;".toList ++ p)) := by
    simp [quoted]
  rw [htext, parse_bracketed hfront hu]

/-- A quoted name is read as it was written, and with it the address behind it, exactly if there is
no `<` in the name. An address in brackets in the name is taken for the one that is meant, whatever
stands behind the name. -/
theorem quoted_name_iff {name : Text} (hname : '"' ∉ name) (hu : '>' ∉ u) {uri : Uri}
    (huri : Uri.parse u = .ok uri) (p : Text) :
    (parse (quoted name u p) = .ok ⟨name, uri, Params.parse p⟩ ↔ '<' ∉ name) ∧
      ∀ front other back, name = front ++ '<' :: (other ++ '>' :: back) → '<' ∉ front →
        '>' ∉ other → (parse (quoted name u p)).map Address.uri = Uri.parse other := by
  refine ⟨⟨fun h => not_mem_displayName h, fun h => ?_⟩, ?_⟩
  · rw [parse_quoted_of_not_mem hname h hu, huri]
    rfl
  · rintro front other back rfl hfront hother
    rw [parse_quoted_of_mem hfront hother]
    cases Uri.parse other <;> rfl

theorem quoted_name_separators :
    let alice : Uri := ⟨.sip, some ⟨"alice".toList, none⟩, ⟨"127.0.0.1".toList, none⟩, [], none⟩
    let name := " sip:bob@127.0.0.1>;tag=0 ".toList
    let u := "sip:alice@127.0.0.1".toList
    (Uri.parse u = .ok alice ∧ '"' ∉ name ∧ '>' ∉ u ∧
        parse (quoted name u "tag=1".toList) = .ok ⟨name, alice, [(['t', 'a', 'g'], some ['1'])]⟩) ∧
      (parse (quoted ("a <".toList ++ "sip:bob@b".toList ++ ['>']) u [])).map Address.uri =
        Uri.parse "sip:bob@b".toList := by
  intro alice name u
  have hu : Uri.parse u = .ok alice := by decide
  have hname : '"' ∉ name := by decide
  have hclose : '>' ∉ u := by decide
  refine ⟨⟨hu, hname, hclose, (quoted_name_iff hname hclose hu _).1.2 (by decide)⟩, ?_⟩
  exact (quoted_name_iff (by decide) hclose hu []).2 "a ".toList "sip:bob@b".toList [] rfl
    (by decide) (by decide)

/-- Bob's address in the name of Alice's. -/
theorem quoted_name_bracket :
    let alice : Uri := ⟨.sip, some ⟨"alice".toList, none⟩, ⟨"127.0.0.1".toList, none⟩, [], none⟩
    let bob : Uri := ⟨.sip, some ⟨"bob".toList, none⟩, ⟨"127.0.0.1".toList, none⟩, [], none⟩
    Uri.parse "sip:alice@127.0.0.1".toList = .ok alice ∧
      parse (quoted "<sip:bob@127.0.0.1>".toList "sip:alice@127.0.0.1".toList "tag=1".toList) =
        .ok ⟨[], bob, [("\" <sip:alice@127.0.0.1>".toList, none), ("tag".toList, some ['1'])]⟩ := by
  decide

end Address
end SipTestbed
