import SipTestbed.Proofs.JsonText

/-! What is printed lies in the grammar of JSON: texts through the escapes that they need, numbers
without a zero in front, objects from the names and values of their members. -/
namespace SipTestbed.Json

theorem Number.wellFormed_ofNat (n : Nat) : (Number.ofNat n).WellFormed where
  whole := ⟨Nat.toDigits_ne_nil, fun _ => Decimal.isDigit_of_mem_write⟩
  zero _ := Decimal.zero_write
  rest := ⟨[], [], rfl, .absent, .absent⟩

theorem Number.unsigned?_eq_some_iff_writes {limit k : Nat} {n : Number} :
    n.unsigned? limit = some k ↔ ∃ ds, n = ⟨false, ds, []⟩ ∧ Decimal.Writes k ds ∧ k ≤ limit := by
  constructor
  · intro h
    rw [unsigned?] at h
    split at h
    · cases h
    · rename_i hplain
      obtain ⟨negative, whole, rest⟩ := n
      simp only [Bool.or_eq_true, not_or, Bool.not_eq_true, Bool.not_eq_false',
        List.isEmpty_iff] at hplain
      obtain ⟨rfl, rfl⟩ := hplain
      exact ⟨whole, rfl, Decimal.digits?_eq_some_iff.1 h⟩
  · rintro ⟨ds, rfl, hds⟩
    exact Decimal.digits?_eq_some_iff.2 hds

/-- Among the numbers that can be written, just the whole ones within the limit have a value. -/
theorem Number.unsigned?_eq_some_iff {limit k : Nat} {n : Number} (hn : n.WellFormed) :
    n.unsigned? limit = some k ↔ n = .ofNat k ∧ k ≤ limit := by
  rw [unsigned?_eq_some_iff_writes]
  constructor
  · rintro ⟨ds, rfl, hds, hk⟩
    have hwhole := Decimal.write_ofDigitChars hn.whole.ne_nil hn.whole.isDigit hn.zero
    rw [hds.value] at hwhole
    exact ⟨by rw [ofNat, hwhole], hk⟩
  · rintro ⟨rfl, hk⟩
    exact ⟨_, rfl, Decimal.writes_write k, hk⟩

theorem nat?_ofNat {limit n : Nat} (h : n ≤ limit) : (ofNat n).nat? limit = some n :=
  Decimal.digits?_write h

theorem Quoted.partOf_cases (c : Char) :
    (∃ l, partOf c = .short l ∧ short? l = some c) ∨
      (partOf c = .unit (UInt16.ofNat c.toNat) ∧ c.toNat < 0x20) ∨
      (partOf c = .plain c ∧ c ≠ '"' ∧ c ≠ '\\' ∧ 0x20 ≤ c.toNat) := by
  by_cases hshort : c ∈ ['"', '\\', '\x08', '\x0c', '\n', '\r', '\t']
  · simp only [List.mem_cons, List.not_mem_nil, or_false] at hshort
    obtain rfl | rfl | rfl | rfl | rfl | rfl | rfl := hshort <;> exact .inl ⟨_, rfl, rfl⟩
  · simp only [List.mem_cons, List.not_mem_nil, or_false, not_or] at hshort
    obtain ⟨hquote, hbackslash, hb, hf, hn, hr, ht⟩ := hshort
    simp only [partOf, hquote, hbackslash, hb, hf, hn, hr, ht, if_false]
    by_cases hcontrol : c.toNat < 0x20
    · exact .inr (.inl ⟨if_pos hcontrol, hcontrol⟩)
    · exact .inr (.inr ⟨if_neg hcontrol, hquote, hbackslash, Nat.not_lt.1 hcontrol⟩)

theorem Quoted.decode?_unit {n : UInt16} (hhigh : isHigh n = false) (hlow : isLow n = false)
    (q : Quoted) : decode? (.unit n :: q) = (decode? q).map (Char.ofNat n.toNat :: ·) := by
  rw [decode?.eq_def]
  simp only [hhigh, hlow, Bool.false_eq_true, if_false]

theorem Quoted.decode?_partOf (c : Char) (q : Quoted) :
    decode? (partOf c :: q) = (decode? q).map (c :: ·) := by
  obtain ⟨l, hpart, hl⟩ | ⟨hpart, hcontrol⟩ | ⟨hpart, -⟩ := partOf_cases c
  · rw [hpart, decode?, hl]
  · have hn : (UInt16.ofNat c.toNat).toNat = c.toNat :=
      UInt16.toNat_ofNat_of_lt' (Nat.lt_trans hcontrol (by decide))
    have hhigh : isHigh (UInt16.ofNat c.toNat) = false := by
      simp [isHigh, UInt16.le_iff_toNat_le, hn]
      omega
    have hlow : isLow (UInt16.ofNat c.toNat) = false := by
      simp [isLow, UInt16.le_iff_toNat_le, hn]
      omega
    rw [hpart, decode?_unit hhigh hlow, hn, Char.ofNat_toNat]
  · rw [hpart, decode?]

theorem Quoted.decode?_encode (t : Text) : decode? (encode t) = some t := by
  induction t with
  | nil => rfl
  | cons c t ih =>
    rw [encode, List.map_cons, decode?_partOf, ← encode, ih]
    rfl

theorem partSpells_unit (n : UInt16) : PartSpells (.unit n) (Quoted.renderPart (.unit n)) := by
  have hlt := n.toNat_lt
  have hunit := PartSpells.unit (Hex.value?_digitChar (d := n.toNat / 4096 % 16) (by omega))
    (Hex.value?_digitChar (d := n.toNat / 256 % 16) (by omega))
    (Hex.value?_digitChar (d := n.toNat / 16 % 16) (by omega))
    (Hex.value?_digitChar (d := n.toNat % 16) (by omega))
  have hn : n.toNat / 4096 % 16 * 4096 + n.toNat / 256 % 16 * 256 + n.toNat / 16 % 16 * 16 +
      n.toNat % 16 = n.toNat := by omega
  rw [hn, UInt16.ofNat_toNat] at hunit
  exact hunit

theorem partSpells_partOf (c : Char) :
    PartSpells (Quoted.partOf c) (Quoted.renderPart (Quoted.partOf c)) := by
  obtain ⟨l, hpart, hl⟩ | ⟨hpart, -⟩ | ⟨hpart, hquote, hbackslash, hcontrol⟩ :=
    Quoted.partOf_cases c
  · rw [hpart]
    exact .short (by rw [hl]; rfl)
  · rw [hpart]
    exact partSpells_unit _
  · rw [hpart]
    exact .plain hcontrol hquote hbackslash

theorem quotedSpells_encode (t : Text) :
    QuotedSpells (Quoted.encode t) ((Quoted.encode t).flatMap Quoted.renderPart) := by
  induction t with
  | nil => exact .nil
  | cons c t ih => exact .cons (partSpells_partOf c) ih

theorem spells_ofText (t : Text) : Spells (.value (ofText t)) (ofText t).render :=
  .string (quotedSpells_encode t)

theorem spells_ofNat (n : Nat) : Spells (.value (ofNat n)) (ofNat n).render :=
  .number (Number.wellFormed_ofNat n)

theorem spells_renderMembers {ms : List (Text × Json)} (hne : ms ≠ [])
    (h : ∀ m ∈ ms, Spells (.value m.2) m.2.render) :
    Spells (.members (ms.map fun m => (Quoted.encode m.1, m.2)))
      (renderMembers (ms.map fun m => (Quoted.encode m.1, m.2))) := by
  have none : Spaces [] := List.forall_mem_nil _
  induction ms with
  | nil => exact absurd rfl hne
  | cons m ms ih =>
    have hname := quotedSpells_encode m.1
    have hvalue := h m List.mem_cons_self
    cases ms with
    | nil =>
      have hmember := Spells.member none hname none none hvalue none
      simpa [renderMembers, Quoted.render] using hmember
    | cons m' ms =>
      have hrest := ih (List.cons_ne_nil _ _) fun m hm => h m (List.mem_cons_of_mem _ hm)
      have hmembers := Spells.members none hname none none hvalue none hrest
      simpa [renderMembers, Quoted.render] using hmembers

theorem spells_ofMembers {ms : List (Text × Json)}
    (h : ∀ m ∈ ms, Spells (.value m.2) m.2.render) :
    Spells (.value (ofMembers ms)) (ofMembers ms).render := by
  by_cases hne : ms = []
  · subst hne
    exact .emptyObject (List.forall_mem_nil _)
  · have hobject := Spells.object (spells_renderMembers hne h)
    simpa [ofMembers, render] using hobject

theorem spelt_ofMembers {ms : List (Text × Json)} (h : ∀ m ∈ ms, Spells (.value m.2) m.2.render) :
    Spelt (ofMembers ms) (ofMembers ms).render :=
  have none : Spaces [] := List.forall_mem_nil _
  ⟨[], _, [], (List.append_nil _).symm, none, spells_ofMembers h, none⟩

end SipTestbed.Json
