import Mathlib.Data.List.TakeWhile
import SipTestbed.Json.Parser
import SipTestbed.Json.Printer
import SipTestbed.Text.Lemmas

/-! The grammar of JSON, and that its strings and numbers are read as it has them, with what follows
them left over. -/
namespace SipTestbed.Json

def Spaces (s : Text) : Prop := ∀ c ∈ s, isSpace c = true

structure Digits (ds : Text) : Prop where
  ne_nil : ds ≠ []
  isDigit : ∀ c ∈ ds, c.isDigit = true

inductive Fraction : Text → Prop where
  | absent : Fraction []
  | digits {ds : Text} : Digits ds → Fraction ('.' :: ds)

inductive Exponent : Text → Prop where
  | absent : Exponent []
  | digits {c : Char} {sign ds : Text} : c = 'e' ∨ c = 'E' → sign ∈ [[], ['+'], ['-']] →
      Digits ds → Exponent (c :: (sign ++ ds))

/-- No zero stands in front of other digits. -/
structure Number.WellFormed (n : Number) : Prop where
  whole : Digits n.whole
  zero : ∀ ds, n.whole = '0' :: ds → ds = []
  rest : ∃ f e, n.rest = f ++ e ∧ Fraction f ∧ Exponent e

/-- How a part of a string is written. The digits of a code unit may have either case. -/
inductive PartSpells : StringPart → Text → Prop where
  | plain {c : Char} : 0x20 ≤ c.toNat → c ≠ '"' → c ≠ '\\' → PartSpells (.plain c) [c]
  | short {l : Char} : (short? l).isSome → PartSpells (.short l) ['\\', l]
  | unit {a b c d : Char} {w x y z : Nat} : Hex.value? a = some w → Hex.value? b = some x →
      Hex.value? c = some y → Hex.value? d = some z →
      PartSpells (.unit (UInt16.ofNat (w * 4096 + x * 256 + y * 16 + z))) ['\\', 'u', a, b, c, d]

inductive QuotedSpells : Quoted → Text → Prop where
  | nil : QuotedSpells [] []
  | cons {p : StringPart} {q : Quoted} {t u : Text} : PartSpells p t → QuotedSpells q u →
      QuotedSpells (p :: q) (t ++ u)

/-- What stands in a text: a value, or what an array or an object has between its brackets. -/
inductive Item where
  | value (v : Json)
  | elements (vs : List Json)
  | members (ms : List (Quoted × Json))

/-- The texts of a value, without blanks around it, and of the insides of brackets. -/
inductive Spells : Item → Text → Prop where
  | null : Spells (.value .null) "null".toList
  | true : Spells (.value (.bool true)) "true".toList
  | false : Spells (.value (.bool false)) "false".toList
  | number {n : Number} : n.WellFormed → Spells (.value (.number n)) n.render
  | string {q : Quoted} {t : Text} : QuotedSpells q t →
      Spells (.value (.string q)) ('"' :: (t ++ ['"']))
  | emptyArray {s : Text} : Spaces s → Spells (.value (.array [])) ('[' :: (s ++ [']']))
  | array {vs : List Json} {t : Text} : Spells (.elements vs) t →
      Spells (.value (.array vs)) ('[' :: (t ++ [']']))
  | emptyObject {s : Text} : Spaces s → Spells (.value (.object [])) ('\x7b' :: (s ++ ['\x7d']))
  | object {ms : List (Quoted × Json)} {t : Text} : Spells (.members ms) t →
      Spells (.value (.object ms)) ('\x7b' :: (t ++ ['\x7d']))
  | element {v : Json} {s t s' : Text} : Spaces s → Spells (.value v) t → Spaces s' →
      Spells (.elements [v]) (s ++ (t ++ s'))
  | elements {v : Json} {vs : List Json} {s t s' u : Text} : Spaces s → Spells (.value v) t →
      Spaces s' → Spells (.elements vs) u →
        Spells (.elements (v :: vs)) (s ++ (t ++ (s' ++ ',' :: u)))
  | member {k : Quoted} {v : Json} {s kt s' s'' t s₃ : Text} : Spaces s → QuotedSpells k kt →
      Spaces s' → Spaces s'' → Spells (.value v) t → Spaces s₃ →
      Spells (.members [(k, v)]) (s ++ '"' :: (kt ++ '"' :: (s' ++ ':' :: (s'' ++ (t ++ s₃)))))
  | members {k : Quoted} {v : Json} {ms : List (Quoted × Json)} {s kt s' s'' t s₃ u : Text} :
      Spaces s → QuotedSpells k kt → Spaces s' → Spaces s'' → Spells (.value v) t → Spaces s₃ →
      Spells (.members ms) u → Spells (.members ((k, v) :: ms))
        (s ++ '"' :: (kt ++ '"' :: (s' ++ ':' :: (s'' ++ (t ++ (s₃ ++ ',' :: u))))))

/-- The texts of a value, with or without blanks around it. -/
def Spelt (v : Json) (t : Text) : Prop :=
  ∃ s u s', t = s ++ (u ++ s') ∧ Spaces s ∧ Spells (.value v) u ∧ Spaces s'

theorem wellFormed_of_spells {n : Number} {t : Text} (h : Spells (.value (.number n)) t) :
    n.WellFormed := by
  cases h
  assumption

theorem exists_spells_of_mem {ms : List (Quoted × Json)} {t : Text} (h : Spells (.members ms) t)
    {m : Quoted × Json} (hm : m ∈ ms) : ∃ u, Spells (.value m.2) u := by
  induction ms generalizing t with
  | nil => cases hm
  | cons m' ms ih =>
    cases h with
    | member _ _ _ _ hv =>
      obtain rfl := List.mem_singleton.1 hm
      exact ⟨_, hv⟩
    | members _ _ _ _ hv _ hrest =>
      obtain rfl | hm := List.mem_cons.1 hm
      · exact ⟨_, hv⟩
      · exact ih hrest hm

theorem Spelt.exists_spells_of_mem {ms : List (Quoted × Json)} {t : Text}
    (h : Spelt (.object ms) t) {m : Quoted × Json} (hm : m ∈ ms) :
    ∃ u, Spells (.value m.2) u := by
  obtain ⟨_, _, _, _, _, hobject, _⟩ := h
  cases hobject with
  | emptyObject => cases hm
  | object hms => exact Json.exists_spells_of_mem hms hm

theorem skipSpace_append {s : Text} (hs : Spaces s) {c : Char} (hc : isSpace c = false) (t : Text) :
    skipSpace (s ++ c :: t) = c :: t := by
  rw [skipSpace, List.dropWhile_append_of_pos hs, List.dropWhile_cons_of_neg (by simp [hc])]

theorem skipSpace_of_spaces {s : Text} (hs : Spaces s) : skipSpace s = [] :=
  List.dropWhile_eq_nil_iff.2 hs

theorem exists_skipSpace (t : Text) : ∃ s, Spaces s ∧ t = s ++ skipSpace t :=
  ⟨t.takeWhile isSpace, fun _ hc => List.mem_takeWhile_imp hc,
    (List.takeWhile_append_dropWhile).symm⟩

theorem exists_spaces {t r : Text} {c : Char} (h : skipSpace t = c :: r) :
    ∃ s, Spaces s ∧ t = s ++ c :: r := by
  obtain ⟨s, hs, ht⟩ := exists_skipSpace t
  exact ⟨s, hs, h ▸ ht⟩

theorem skipSpace_cons {c : Char} (hc : isSpace c = false) (t : Text) :
    skipSpace (c :: t) = c :: t :=
  skipSpace_append (List.forall_mem_nil _) hc t

theorem skipSpace_spaces_append {s : Text} (hs : Spaces s) (t : Text) :
    skipSpace (s ++ t) = skipSpace t :=
  List.dropWhile_append_of_pos hs

theorem skipSpace_skipSpace (t : Text) : skipSpace (skipSpace t) = skipSpace t :=
  List.dropWhile_idempotent isSpace t

theorem string?_part {p : StringPart} {t : Text} (h : PartSpells p t) (r : Text) :
    string? (t ++ r) = consPart p (string? r) := by
  cases h with
  | plain hcontrol hquote hbackslash =>
    rw [List.singleton_append, string?]
    · simp [hbackslash, Nat.not_lt.2 hcontrol]
    · exact hquote
    · exact fun _ _ _ _ _ hc _ => hbackslash hc
    · exact fun _ _ hc _ => hbackslash hc
  | short hl =>
    rw [List.cons_append, List.singleton_append, string?, if_pos hl]
    rintro _ _ _ _ _ rfl -
    cases hl
  | unit ha hb hc hd => simp [string?, unit?, ha, hb, hc, hd]

theorem string?_quoted {q : Quoted} {t : Text} (h : QuotedSpells q t) (r : Text) :
    string? (t ++ '"' :: r) = some (q, r) := by
  induction h with
  | nil => rw [List.nil_append, string?]
  | cons hp _ ih =>
    rw [List.append_assoc, string?_part hp, ih]
    rfl

theorem consPart_eq_some_iff {p : StringPart} {rest : Option (Quoted × Text)} {q : Quoted}
    {r : Text} : consPart p rest = some (q, r) ↔ ∃ q', rest = some (q', r) ∧ q = p :: q' := by
  rw [consPart, Option.map_eq_some_iff]
  constructor
  · rintro ⟨⟨q', r'⟩, hrest, he⟩
    cases he
    exact ⟨q', hrest, rfl⟩
  · rintro ⟨q', hrest, rfl⟩
    exact ⟨_, hrest, rfl⟩

theorem unit?_eq_some_iff {a b c d : Char} {n : UInt16} : unit? a b c d = some n ↔
    ∃ w x y z, Hex.value? a = some w ∧ Hex.value? b = some x ∧ Hex.value? c = some y ∧
      Hex.value? d = some z ∧ n = UInt16.ofNat (w * 4096 + x * 256 + y * 16 + z) := by
  simp only [unit?, Option.bind_eq_bind, Option.bind_eq_some_iff, Option.pure_def,
    Option.some.injEq]
  constructor
  · rintro ⟨w, hw, x, hx, y, hy, z, hz, rfl⟩
    exact ⟨w, x, y, z, hw, hx, hy, hz, rfl⟩
  · rintro ⟨w, x, y, z, hw, hx, hy, hz, rfl⟩
    exact ⟨w, hw, x, hx, y, hy, z, hz, rfl⟩

theorem quotedSpells_of_string? {t r : Text} {q : Quoted} (h : string? t = some (q, r)) :
    ∃ u, QuotedSpells q u ∧ t = u ++ '"' :: r := by
  fun_induction string? t generalizing q with
  | case1 r' =>
    cases h
    exact ⟨[], .nil, rfl⟩
  | case2 a b c d r' n hn ih =>
    obtain ⟨q', hq', rfl⟩ := consPart_eq_some_iff.1 h
    obtain ⟨u, hu, rfl⟩ := ih hq'
    obtain ⟨w, x, y, z, hw, hx, hy, hz, rfl⟩ := unit?_eq_some_iff.1 hn
    exact ⟨_, .cons (.unit hw hx hy hz) hu, rfl⟩
  | case3 => cases h
  | case4 l r' _ hl ih =>
    obtain ⟨q', hq', rfl⟩ := consPart_eq_some_iff.1 h
    obtain ⟨u, hu, rfl⟩ := ih hq'
    exact ⟨_, .cons (.short hl) hu, rfl⟩
  | case5 => cases h
  | case6 => cases h
  | case7 c r' hquote _ _ hplain ih =>
    obtain ⟨q', hq', rfl⟩ := consPart_eq_some_iff.1 h
    obtain ⟨u, hu, rfl⟩ := ih hq'
    simp only [Bool.or_eq_true, beq_iff_eq, decide_eq_true_eq, not_or, Nat.not_lt] at hplain
    exact ⟨_, .cons (.plain hplain.2 hquote hplain.1) hu, rfl⟩
  | case8 => cases h

/-- A text that goes on with no character of a class. -/
def Leaves (p : Char → Bool) (r : Text) : Prop := ∀ c, r.head? = some c → p c = false

theorem takeWhile_append_of_leaves {p : Char → Bool} {t r : Text} (ht : ∀ c ∈ t, p c = true)
    (hr : Leaves p r) : (t ++ r).takeWhile p = t ∧ (t ++ r).dropWhile p = r := by
  have hrest : r.takeWhile p = [] ∧ r.dropWhile p = r := by
    cases r with
    | nil => exact ⟨rfl, rfl⟩
    | cons c r =>
      have hc : ¬ p c = true := by simp [hr c rfl]
      exact ⟨List.takeWhile_cons_of_neg hc, List.dropWhile_cons_of_neg hc⟩
  rw [List.takeWhile_append_of_pos ht, List.dropWhile_append_of_pos ht, hrest.1, hrest.2,
    List.append_nil]
  exact ⟨rfl, rfl⟩

theorem digits?_append {ds r : Text} (hds : Digits ds) (hr : Leaves Char.isDigit r) :
    digits? (ds ++ r) = some (ds, r) := by
  obtain ⟨htake, hdrop⟩ := takeWhile_append_of_leaves hds.isDigit hr
  rw [digits?, htake, hdrop, if_neg (by simpa using hds.ne_nil)]

theorem digits_of_digits? {t ds r : Text} (h : digits? t = some (ds, r)) :
    Digits ds ∧ t = ds ++ r := by
  rw [digits?] at h
  split at h
  · cases h
  · rename_i hne
    cases h
    exact ⟨⟨by simpa using hne, fun c hc => List.mem_takeWhile_imp hc⟩,
      List.takeWhile_append_dropWhile.symm⟩

theorem whole?_append {n : Number} (hn : n.WellFormed) {r : Text} (hr : Leaves Char.isDigit r) :
    whole? (n.whole ++ r) = some (n.whole, r) := by
  obtain ⟨c, ds, hwhole⟩ := List.exists_cons_of_ne_nil hn.whole.ne_nil
  by_cases hc : c = '0'
  · subst hc
    have hno : (r.head?.map Char.isDigit).getD false = false := by
      cases hd : r.head? with
      | none => rfl
      | some d => exact hr d hd
    rw [hwhole, hn.zero ds hwhole, List.singleton_append, whole?, hno]
    rfl
  · rw [whole?, digits?_append hn.whole hr]
    intro r' he
    rw [hwhole] at he
    exact hc (List.cons.inj he).1

theorem digits_of_whole? {t w r : Text} (h : whole? t = some (w, r)) :
    Digits w ∧ (∀ ds, w = '0' :: ds → ds = []) ∧ t = w ++ r := by
  unfold whole? at h
  split at h
  · split at h
    · cases h
    · cases h
      refine ⟨⟨by simp, List.forall_mem_singleton.2 rfl⟩, ?_, rfl⟩
      intro ds he
      exact (List.cons.inj he).2.symm
  · rename_i hzero
    obtain ⟨hw, rfl⟩ := digits_of_digits? h
    refine ⟨hw, ?_, rfl⟩
    rintro ds rfl
    exact absurd rfl (hzero (ds ++ r))

theorem fraction?_append {f : Text} (hf : Fraction f) {r : Text} (hr : Leaves Char.isDigit r)
    (hpoint : r.head? ≠ some '.') : fraction? (f ++ r) = some (f, r) := by
  cases hf with
  | absent =>
    rw [List.nil_append, fraction?]
    rintro r' rfl
    exact hpoint rfl
  | digits hds =>
    rw [List.cons_append, fraction?, digits?_append hds hr]
    rfl

theorem fraction_of_fraction? {t f r : Text} (h : fraction? t = some (f, r)) :
    Fraction f ∧ t = f ++ r := by
  unfold fraction? at h
  split at h
  · obtain ⟨⟨ds, r'⟩, hds, he⟩ := Option.map_eq_some_iff.1 h
    obtain ⟨hdigits, rfl⟩ := digits_of_digits? hds
    cases he
    exact ⟨.digits hdigits, rfl⟩
  · cases h
    exact ⟨.absent, rfl⟩

theorem exponentSign_append {sign ds : Text} (hsign : sign ∈ [[], ['+'], ['-']]) (hds : Digits ds)
    (r : Text) : exponentSign (sign ++ (ds ++ r)) = (sign, ds ++ r) := by
  obtain ⟨c, ds', rfl⟩ := List.exists_cons_of_ne_nil hds.ne_nil
  have hc : c.isDigit = true := hds.isDigit c List.mem_cons_self
  simp only [List.mem_cons, List.not_mem_nil, or_false] at hsign
  obtain rfl | rfl | rfl := hsign
  · rw [List.nil_append, exponentSign]
    · rintro r' he
      rw [(List.cons.inj he).1] at hc
      cases hc
    · rintro r' he
      rw [(List.cons.inj he).1] at hc
      cases hc
  · rfl
  · rfl

theorem exponent?_append {e : Text} (he : Exponent e) {r : Text} (hr : Leaves Char.isDigit r)
    (hletter : r.head? ≠ some 'e' ∧ r.head? ≠ some 'E') : exponent? (e ++ r) = some (e, r) := by
  cases he with
  | absent =>
    cases r with
    | nil => rfl
    | cons c r =>
      have hc : ¬ (c == 'e' || c == 'E') = true := by simpa using hletter
      rw [List.nil_append, exponent?, if_neg hc]
  | digits hc hsign hds =>
    rename_i c sign ds
    have hletter : (c == 'e' || c == 'E') = true := by simpa using hc
    rw [List.cons_append, List.append_assoc, exponent?, if_pos hletter,
      exponentSign_append hsign hds, digits?_append hds hr]
    rfl

theorem exponent_of_exponent? {t e r : Text} (h : exponent? t = some (e, r)) :
    Exponent e ∧ t = e ++ r := by
  unfold exponent? at h
  split at h
  · rename_i c t'
    split at h
    · rename_i hletter
      obtain ⟨⟨ds, r'⟩, hds, he⟩ := Option.map_eq_some_iff.1 h
      obtain ⟨hdigits, hrest⟩ := digits_of_digits? hds
      cases he
      have hsign : (exponentSign t').1 ∈ [[], ['+'], ['-']] ∧
          t' = (exponentSign t').1 ++ (exponentSign t').2 := by
        unfold exponentSign
        split <;> simp
      refine ⟨.digits (by simpa using hletter) hsign.1 hdigits, ?_⟩
      calc c :: t' = c :: ((exponentSign t').1 ++ (exponentSign t').2) := congrArg _ hsign.2
        _ = c :: ((exponentSign t').1 ++ ds) ++ r := by
          rw [hrest, List.cons_append, List.append_assoc]
    · cases h
      exact ⟨.absent, rfl⟩
  · cases h
    exact ⟨.absent, rfl⟩

theorem Fraction.of_head? {f : Text} (hf : Fraction f) {r : Text} {c : Char}
    (hc : (f ++ r).head? = some c) : c = '.' ∨ r.head? = some c := by
  cases hf with
  | absent => exact .inr hc
  | digits => exact .inl (Option.some.inj hc).symm

theorem Exponent.of_head? {e : Text} (he : Exponent e) {r : Text} {c : Char}
    (hc : (e ++ r).head? = some c) : c = 'e' ∨ c = 'E' ∨ r.head? = some c := by
  cases he with
  | absent => exact .inr (.inr hc)
  | digits hletter =>
    obtain rfl := Option.some.inj hc
    exact hletter.imp_right .inl

/-- What may follow a value: a blank, a comma or a closing bracket, or nothing. -/
def Stops (r : Text) : Prop :=
  ∀ c, r.head? = some c → isSpace c = true ∨ c = ',' ∨ c = ']' ∨ c = '\x7d'

theorem Stops.of_head? {r : Text} (hr : Stops r) {c : Char} (hc : r.head? = some c) :
    c.isDigit = false ∧ c ≠ '.' ∧ c ≠ 'e' ∧ c ≠ 'E' := by
  have hcases := hr c hc
  simp only [isSpace, Bool.or_eq_true, beq_iff_eq] at hcases
  obtain (((rfl | rfl) | rfl) | rfl) | rfl | rfl | rfl := hcases <;> decide

theorem number?_append {n : Number} (hn : n.WellFormed) {r : Text} (hr : Stops r) :
    number? n.negative (n.whole ++ (n.rest ++ r)) = some (.number n, r) := by
  obtain ⟨f, e, hrest, hf, he⟩ := hn.rest
  have hstop : Leaves Char.isDigit r := fun c hc => (hr.of_head? hc).1
  have hexponent : ∀ c, (e ++ r).head? = some c → c.isDigit = false ∧ c ≠ '.' := by
    intro c hc
    obtain rfl | rfl | hc := he.of_head? hc
    · decide
    · decide
    · exact ⟨(hr.of_head? hc).1, (hr.of_head? hc).2.1⟩
  have hfraction : Leaves Char.isDigit (f ++ (e ++ r)) := by
    intro c hc
    obtain rfl | hc := hf.of_head? hc
    · rfl
    · exact (hexponent c hc).1
  have hwhole := whole?_append hn hfraction
  have hpoint := fraction?_append hf (fun c hc => (hexponent c hc).1)
    (fun hc => (hexponent _ hc).2 rfl)
  have hletter := exponent?_append he hstop
    ⟨fun hc => (hr.of_head? hc).2.2.1 rfl, fun hc => (hr.of_head? hc).2.2.2 rfl⟩
  simp only [number?, hrest, List.append_assoc, hwhole, hpoint, hletter, Option.bind_eq_bind,
    Option.bind_some, Option.pure_def]
  rw [← hrest]

theorem wellFormed_of_number? {negative : Bool} {t r : Text} {v : Json}
    (h : number? negative t = some (v, r)) :
    ∃ n : Number, v = .number n ∧ n.negative = negative ∧ n.WellFormed ∧
      t = n.whole ++ (n.rest ++ r) := by
  simp only [number?, Option.bind_eq_bind, Option.bind_eq_some_iff, Option.pure_def,
    Option.some.injEq, Prod.mk.injEq, Prod.exists] at h
  obtain ⟨w, r₁, hw, f, r₂, hf, e, r₃, he, rfl, rfl⟩ := h
  obtain ⟨hwhole, hzero, rfl⟩ := digits_of_whole? hw
  obtain ⟨hfraction, rfl⟩ := fraction_of_fraction? hf
  obtain ⟨hexponent, rfl⟩ := exponent_of_exponent? he
  exact ⟨_, rfl, rfl, ⟨hwhole, hzero, f, e, rfl, hfraction, hexponent⟩, by simp⟩

end SipTestbed.Json
