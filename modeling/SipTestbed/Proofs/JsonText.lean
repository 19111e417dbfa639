import SipTestbed.Proofs.JsonGrammar

/-! Reading takes just the texts that the grammar of JSON derives: for each of them the value that it
derives, whatever blanks and escapes it is written with. -/
namespace SipTestbed.Json

theorem value?_skipSpace (n : Nat) (t : Text) : value? n (skipSpace t) = value? n t := by
  cases n with
  | zero => rfl
  | succ n => rw [value?, value?, skipSpace_skipSpace]

theorem value?_spaces_append {s : Text} (hs : Spaces s) (n : Nat) (t : Text) :
    value? n (s ++ t) = value? n t := by
  rw [← value?_skipSpace, skipSpace_spaces_append hs, value?_skipSpace]

section Step
variable (n : Nat) (t : Text)

theorem value?_quote :
    value? (n + 1) ('"' :: t) = (string? t).map fun (s, r) => (.string s, r) :=
  rfl

theorem value?_bracket : value? (n + 1) ('[' :: t) =
    match skipSpace t with
    | ']' :: r => some (.array [], r)
    | r => (elements? n r).map fun (vs, r) => (.array vs, r) :=
  rfl

theorem value?_brace : value? (n + 1) ('\x7b' :: t) =
    match skipSpace t with
    | '\x7d' :: r => some (.object [], r)
    | r => (members? n r).map fun (ms, r) => (.object ms, r) :=
  rfl

theorem value?_minus : value? (n + 1) ('-' :: t) = number? true t :=
  rfl

theorem value?_t : value? (n + 1) ('t' :: t) = word? "rue".toList (.bool .true) t :=
  rfl

theorem value?_f : value? (n + 1) ('f' :: t) = word? "alse".toList (.bool .false) t :=
  rfl

theorem value?_n : value? (n + 1) ('n' :: t) = word? "ull".toList .null t :=
  rfl

theorem value?_digit {c : Char} (hc : c.isDigit = true) :
    value? (n + 1) (c :: t) = number? false (c :: t) := by
  have hspace : isSpace c = false := by
    simp only [isSpace, Bool.or_eq_false_iff, beq_eq_false_iff_ne]
    refine ⟨⟨⟨?_, ?_⟩, ?_⟩, ?_⟩ <;> rintro rfl <;> cases hc
  rw [value?, skipSpace_cons hspace]
  split
  case h_8 => rfl
  all_goals
    rename_i he
    rw [(List.cons.inj he).1] at hc
    cases hc

theorem elements?_succ : elements? (n + 1) t = (value? n t).bind fun (v, r) =>
    match skipSpace r with
    | ',' :: r => (elements? n r).map fun (vs, r) => (v :: vs, r)
    | ']' :: r => some ([v], r)
    | _ => none :=
  rfl

theorem members?_succ : members? (n + 1) t =
    match skipSpace t with
    | '"' :: r => (string? r).bind fun (k, r) =>
      match skipSpace r with
      | ':' :: r => (value? n r).bind fun (v, r) =>
        match skipSpace r with
        | ',' :: r => (members? n r).map fun (ms, r) => ((k, v) :: ms, r)
        | '\x7d' :: r => some ([(k, v)], r)
        | _ => none
      | _ => none
    | _ => none :=
  rfl

theorem elements?_skipSpace : elements? n (skipSpace t) = elements? n t := by
  cases n with
  | zero => rfl
  | succ n => rw [elements?_succ, elements?_succ, value?_skipSpace]

theorem members?_skipSpace : members? n (skipSpace t) = members? n t := by
  cases n with
  | zero => rfl
  | succ n => rw [members?_succ, members?_succ, skipSpace_skipSpace]

theorem elements?_close : elements? n (']' :: t) = none := by
  obtain _ | _ | n := n <;> rfl

theorem members?_close : members? n ('\x7d' :: t) = none := by
  cases n <;> rfl

end Step

theorem value?_array {n : Nat} {t r : Text} {vs : List Json}
    (h : elements? n t = some (vs, r)) : value? (n + 1) ('[' :: t) = some (.array vs, r) := by
  rw [← elements?_skipSpace] at h
  rw [value?_bracket]
  split
  · rename_i hclose
    rw [hclose, elements?_close] at h
    cases h
  · rw [h]
    rfl

theorem value?_object {n : Nat} {t r : Text} {ms : List (Quoted × Json)}
    (h : members? n t = some (ms, r)) : value? (n + 1) ('\x7b' :: t) = some (.object ms, r) := by
  rw [← members?_skipSpace] at h
  rw [value?_brace]
  split
  · rename_i hclose
    rw [hclose, members?_close] at h
    cases h
  · rw [h]
    rfl

theorem word?_append (w : Text) (v : Json) (r : Text) : word? w v (w ++ r) = some (v, r) := by
  rw [word?, if_pos (List.isPrefixOf_iff_prefix.2 (List.prefix_append w r)), List.drop_left]

theorem value?_number {n : Number} (hn : n.WellFormed) (fuel : Nat) {r : Text} (hr : Stops r) :
    value? (fuel + 1) (n.render ++ r) = some (.number n, r) := by
  have hnumber := number?_append hn hr
  rw [Number.render, List.append_assoc, List.append_assoc]
  cases hsign : n.negative with
  | true =>
    rw [hsign] at hnumber
    exact (value?_minus ..).trans hnumber
  | false =>
    rw [hsign] at hnumber
    obtain ⟨c, ds, hwhole⟩ := List.exists_cons_of_ne_nil hn.whole.ne_nil
    have hc : c.isDigit = true := hn.whole.isDigit c (hwhole ▸ List.mem_cons_self)
    rw [hwhole] at hnumber ⊢
    exact (value?_digit _ _ hc).trans hnumber

theorem Stops.of_spaces {s : Text} (hs : Spaces s) {r : Text} (hr : Stops r) : Stops (s ++ r) := by
  cases s with
  | nil => exact hr
  | cons c s =>
    intro d hd
    obtain rfl := Option.some.inj hd
    exact .inl (hs c List.mem_cons_self)

theorem Stops.cons {c : Char} (hc : c = ',' ∨ c = ']' ∨ c = '\x7d') (r : Text) :
    Stops (c :: r) := by
  intro d hd
  obtain rfl := Option.some.inj hd
  exact .inr hc

section Values
variable {n : Nat} {r : Text} {v : Json}

theorem elements?_of_value {t : Text} (h : value? n t = some (v, r)) :
    elements? (n + 1) t =
      match skipSpace r with
      | ',' :: r => (elements? n r).map fun (vs, r) => (v :: vs, r)
      | ']' :: r => some ([v], r)
      | _ => none :=
  congrArg (Option.bind · _) h

theorem members?_of_value {k : Quoted} {s kt s' t : Text} (hs : Spaces s) (hk : QuotedSpells k kt)
    (hs' : Spaces s') (h : value? n t = some (v, r)) :
    members? (n + 1) (s ++ '"' :: (kt ++ '"' :: (s' ++ ':' :: t))) =
      match skipSpace r with
      | ',' :: r => (members? n r).map fun (ms, r) => ((k, v) :: ms, r)
      | '\x7d' :: r => some ([(k, v)], r)
      | _ => none := by
  rw [members?_succ, skipSpace_append hs rfl]
  simp only [string?_quoted hk, Option.bind_some]
  rw [skipSpace_append hs' rfl]
  exact congrArg (Option.bind · _) h

end Values

/-- What reading gives of a text with enough fuel and a proper end behind it. Elements and members
take one unit more than a value as long, since reading them starts with one. -/
def Reads : Item → Text → Prop
  | .value v, t => ∀ n r, 2 * t.length ≤ n → Stops r → value? (n + 1) (t ++ r) = some (v, r)
  | .elements vs, t => ∀ n r, 2 * t.length + 1 ≤ n →
      elements? (n + 1) (t ++ ']' :: r) = some (vs, r)
  | .members ms, t => ∀ n r, 2 * t.length + 1 ≤ n →
      members? (n + 1) (t ++ '\x7d' :: r) = some (ms, r)

theorem exists_fuel {n l : Nat} (h : l < n) : ∃ m, n = m + 1 ∧ l ≤ m :=
  ⟨n - 1, by omega, by omega⟩

theorem reads_of_spells {i : Item} {t : Text} (h : Spells i t) : Reads i t := by
  -- along the derivation; blanks behind a value keep its end proper, those in front are skipped
  induction h with
  | null => exact fun n r _ _ => (value?_n ..).trans (word?_append ..)
  | true => exact fun n r _ _ => (value?_t ..).trans (word?_append ..)
  | false => exact fun n r _ _ => (value?_f ..).trans (word?_append ..)
  | number hwell => exact fun n r _ hr => value?_number hwell n hr
  | string hq =>
    intro n r _ _
    rw [List.cons_append, value?_quote, List.append_assoc, List.singleton_append,
      string?_quoted hq]
    rfl
  | emptyArray hs =>
    intro n r _ _
    rw [List.cons_append, value?_bracket, List.append_assoc, List.singleton_append,
      skipSpace_append hs rfl]
    rfl
  | @array vs t _ ih =>
    intro n r hn _
    simp only [List.length_cons, List.length_append] at hn
    have hfuel : 2 * t.length + 1 < n := by omega
    obtain ⟨m, rfl, hm⟩ := exists_fuel hfuel
    rw [List.cons_append, List.append_assoc, List.singleton_append]
    exact value?_array (ih m r hm)
  | emptyObject hs =>
    intro n r _ _
    rw [List.cons_append, value?_brace, List.append_assoc, List.singleton_append,
      skipSpace_append hs rfl]
    rfl
  | @object ms t _ ih =>
    intro n r hn _
    simp only [List.length_cons, List.length_append] at hn
    have hfuel : 2 * t.length + 1 < n := by omega
    obtain ⟨m, rfl, hm⟩ := exists_fuel hfuel
    rw [List.cons_append, List.append_assoc, List.singleton_append]
    exact value?_object (ih m r hm)
  | @element v s t s' hs _ hs' ih =>
    intro n r hn
    simp only [List.length_append] at hn
    have hfuel : 2 * t.length < n := by omega
    obtain ⟨m, rfl, hm⟩ := exists_fuel hfuel
    have hvalue := ih m (s' ++ ']' :: r) hm (.of_spaces hs' (.cons (by decide) r))
    rw [← value?_spaces_append hs] at hvalue
    rw [List.append_assoc, List.append_assoc, elements?_of_value hvalue, skipSpace_append hs' rfl]
    rfl
  | @elements v vs s t s' u hs _ hs' _ ih ihrest =>
    intro n r hn
    simp only [List.length_append, List.length_cons] at hn
    have hfuel : 2 * t.length + 2 * u.length + 1 < n := by omega
    obtain ⟨m, rfl, hm⟩ := exists_fuel hfuel
    have hvalue := ih m (s' ++ ',' :: (u ++ ']' :: r)) (by omega)
      (.of_spaces hs' (.cons (by decide) _))
    rw [← value?_spaces_append hs] at hvalue
    simp only [List.append_assoc, List.cons_append]
    rw [elements?_of_value hvalue, skipSpace_append hs' rfl]
    simp only [ihrest m r (by omega), Option.map_some]
  | @member k v s kt s' s'' t s₃ hs hk hs' hs'' _ hs₃ ih =>
    intro n r hn
    simp only [List.length_append, List.length_cons] at hn
    have hfuel : 2 * t.length < n := by omega
    obtain ⟨m, rfl, hm⟩ := exists_fuel hfuel
    have hvalue := ih m (s₃ ++ '\x7d' :: r) hm (.of_spaces hs₃ (.cons (by decide) r))
    rw [← value?_spaces_append hs''] at hvalue
    simp only [List.append_assoc, List.cons_append]
    rw [members?_of_value hs hk hs' hvalue, skipSpace_append hs₃ rfl]
    rfl
  | @members k v ms s kt s' s'' t s₃ u hs hk hs' hs'' _ hs₃ _ ih ihrest =>
    intro n r hn
    simp only [List.length_append, List.length_cons] at hn
    have hfuel : 2 * t.length + 2 * u.length + 1 < n := by omega
    obtain ⟨m, rfl, hm⟩ := exists_fuel hfuel
    have hvalue := ih m (s₃ ++ ',' :: (u ++ '\x7d' :: r)) (by omega)
      (.of_spaces hs₃ (.cons (by decide) _))
    rw [← value?_spaces_append hs''] at hvalue
    simp only [List.append_assoc, List.cons_append]
    rw [members?_of_value hs hk hs' hvalue, skipSpace_append hs₃ rfl]
    simp only [ihrest m r (by omega), Option.map_some]

theorem parse?_of_spelt {v : Json} {t : Text} (h : Spelt v t) : parse? t = some v := by
  obtain ⟨s, u, s', rfl, hs, hu, hs'⟩ := h
  have hfuel : 2 * u.length ≤ 2 * (s ++ (u ++ s')).length + 1 := by
    simp only [List.length_append]
    omega
  have hvalue := reads_of_spells hu (2 * (s ++ (u ++ s')).length + 1) s' hfuel
    (List.append_nil s' ▸ .of_spaces hs' (fun _ he => nomatch he))
  rw [← value?_spaces_append hs] at hvalue
  rw [parse?, hvalue]
  simp [skipSpace_of_spaces hs']

theorem eq_of_word? {w t r : Text} {v v' : Json} (h : word? w v t = some (v', r)) :
    v' = v ∧ t = w ++ r := by
  rw [word?] at h
  split at h
  · rename_i hprefix
    obtain ⟨r', rfl⟩ := List.isPrefixOf_iff_prefix.1 hprefix
    rw [List.drop_left] at h
    cases h
    exact ⟨rfl, rfl⟩
  · cases h

structure Sound (n : Nat) : Prop where
  value : ∀ {t v r}, value? n t = some (v, r) → ∃ u, Spells (.value v) u ∧ skipSpace t = u ++ r
  elements : ∀ {t vs r}, elements? n t = some (vs, r) →
    ∃ u, Spells (.elements vs) u ∧ t = u ++ ']' :: r
  members : ∀ {t ms r}, members? n t = some (ms, r) →
    ∃ u, Spells (.members ms) u ∧ t = u ++ '\x7d' :: r

theorem Sound.exists_value {n : Nat} (ih : Sound n) {t r : Text} {v : Json}
    (h : value? n t = some (v, r)) :
    ∃ s u, Spaces s ∧ Spells (.value v) u ∧ t = s ++ (u ++ r) := by
  obtain ⟨u, hu, hstart⟩ := ih.value h
  obtain ⟨s, hs, ht⟩ := exists_skipSpace t
  exact ⟨s, u, hs, hu, hstart ▸ ht⟩

theorem spells_of_number? {negative : Bool} {t r : Text} {v : Json}
    (h : number? negative t = some (v, r)) :
    ∃ u, Spells (.value v) u ∧ (if negative then ['-'] else []) ++ t = u ++ r := by
  obtain ⟨n, rfl, rfl, hn, rfl⟩ := wellFormed_of_number? h
  exact ⟨_, .number hn, by simp [Number.render]⟩

theorem Sound.value_succ {n : Nat} (ih : Sound n) {t r : Text} {v : Json}
    (h : value? (n + 1) t = some (v, r)) : ∃ u, Spells (.value v) u ∧ skipSpace t = u ++ r := by
  rw [value?] at h
  split at h <;> rename_i hstart
  case h_1 =>
    obtain ⟨⟨q, r'⟩, hq, he⟩ := Option.map_eq_some_iff.1 h
    cases he
    obtain ⟨u, hu, rfl⟩ := quotedSpells_of_string? hq
    exact ⟨_, .string hu, by simp [hstart]⟩
  case h_2 =>
    split at h
    · rename_i hclose
      cases h
      obtain ⟨s, hs, rfl⟩ := exists_spaces hclose
      exact ⟨_, .emptyArray hs, by simp [hstart]⟩
    · obtain ⟨⟨vs, r'⟩, hvs, he⟩ := Option.map_eq_some_iff.1 h
      cases he
      rw [elements?_skipSpace] at hvs
      obtain ⟨u, hu, rfl⟩ := ih.elements hvs
      exact ⟨_, .array hu, by simp [hstart]⟩
  case h_3 =>
    split at h
    · rename_i hclose
      cases h
      obtain ⟨s, hs, rfl⟩ := exists_spaces hclose
      exact ⟨_, .emptyObject hs, by simp [hstart]⟩
    · obtain ⟨⟨ms, r'⟩, hms, he⟩ := Option.map_eq_some_iff.1 h
      cases he
      rw [members?_skipSpace] at hms
      obtain ⟨u, hu, rfl⟩ := ih.members hms
      exact ⟨_, .object hu, by simp [hstart]⟩
  case h_4 => exact hstart ▸ spells_of_number? h
  case h_5 =>
    obtain ⟨rfl, rfl⟩ := eq_of_word? h
    exact ⟨_, .true, hstart⟩
  case h_6 =>
    obtain ⟨rfl, rfl⟩ := eq_of_word? h
    exact ⟨_, .false, hstart⟩
  case h_7 =>
    obtain ⟨rfl, rfl⟩ := eq_of_word? h
    exact ⟨_, .null, hstart⟩
  case h_8 => exact spells_of_number? h

theorem Sound.elements_succ {n : Nat} (ih : Sound n) {t r : Text} {vs : List Json}
    (h : elements? (n + 1) t = some (vs, r)) :
    ∃ u, Spells (.elements vs) u ∧ t = u ++ ']' :: r := by
  rw [elements?_succ] at h
  obtain ⟨⟨v, r₁⟩, hv, hrest⟩ := Option.bind_eq_some_iff.1 h
  obtain ⟨s, u, hs, hu, rfl⟩ := ih.exists_value hv
  dsimp only at hrest
  split at hrest
  · rename_i hcomma
    obtain ⟨s', hs', rfl⟩ := exists_spaces hcomma
    obtain ⟨⟨vs', r'⟩, hvs, he⟩ := Option.map_eq_some_iff.1 hrest
    cases he
    obtain ⟨u', hu', rfl⟩ := ih.elements hvs
    exact ⟨_, .elements hs hu hs' hu', by simp⟩
  · rename_i hclose
    obtain ⟨s', hs', rfl⟩ := exists_spaces hclose
    cases hrest
    exact ⟨_, .element hs hu hs', by simp⟩
  · cases hrest

theorem Sound.members_succ {n : Nat} (ih : Sound n) {t r : Text} {ms : List (Quoted × Json)}
    (h : members? (n + 1) t = some (ms, r)) :
    ∃ u, Spells (.members ms) u ∧ t = u ++ '\x7d' :: r := by
  rw [members?_succ] at h
  split at h
  · rename_i hquote
    obtain ⟨s, hs, rfl⟩ := exists_spaces hquote
    obtain ⟨⟨k, r₁⟩, hk, hrest⟩ := Option.bind_eq_some_iff.1 h
    obtain ⟨kt, hkt, rfl⟩ := quotedSpells_of_string? hk
    dsimp only at hrest
    split at hrest
    · rename_i hcolon
      obtain ⟨s', hs', rfl⟩ := exists_spaces hcolon
      obtain ⟨⟨v, r₂⟩, hv, hend⟩ := Option.bind_eq_some_iff.1 hrest
      obtain ⟨s'', u, hs'', hu, rfl⟩ := ih.exists_value hv
      dsimp only at hend
      split at hend
      · rename_i hcomma
        obtain ⟨s₃, hs₃, rfl⟩ := exists_spaces hcomma
        obtain ⟨⟨ms', r'⟩, hms, he⟩ := Option.map_eq_some_iff.1 hend
        cases he
        obtain ⟨u', hu', rfl⟩ := ih.members hms
        exact ⟨_, .members hs hkt hs' hs'' hu hs₃ hu', by simp⟩
      · rename_i hclose
        obtain ⟨s₃, hs₃, rfl⟩ := exists_spaces hclose
        cases hend
        exact ⟨_, .member hs hkt hs' hs'' hu hs₃, by simp⟩
      · cases hend
    · cases hrest
  · cases h

theorem sound (n : Nat) : Sound n := by
  induction n with
  | zero => refine ⟨fun h => ?_, fun h => ?_, fun h => ?_⟩ <;> cases h
  | succ n ih => exact ⟨ih.value_succ, ih.elements_succ, ih.members_succ⟩

/-- Reading takes just the texts that the grammar has for a value. -/
theorem parse?_eq_some_iff {t : Text} {v : Json} : parse? t = some v ↔ Spelt v t := by
  refine ⟨fun h => ?_, parse?_of_spelt⟩
  rw [parse?] at h
  split at h
  · rename_i v' r hvalue
    split at h
    · rename_i hend
      cases h
      obtain ⟨s, u, hs, hu, rfl⟩ := (sound _).exists_value hvalue
      have hr : Spaces r := List.dropWhile_eq_nil_iff.1 (List.isEmpty_iff.1 hend)
      exact ⟨s, u, r, rfl, hs, hu, hr⟩
    · cases h
  · cases h

end SipTestbed.Json
