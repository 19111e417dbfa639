import Mathlib.Data.List.DropRight
import SipTestbed.Text.Hex
import SipTestbed.Text.Lemmas

/-! Blanks at the ends of a text around a character that stays, letter case, and the pieces between
separators. -/
namespace SipTestbed.Text

theorem dropWhile_append_cons {p : Char → Bool} (a : Text) {c : Char} (b : Text)
    (hc : p c = false) : (a ++ c :: b).dropWhile p = a.dropWhile p ++ c :: b := by
  induction a with
  | nil => simp [List.dropWhile, hc]
  | cons d a ih => cases hd : p d <;> simp [List.dropWhile, hd, ih]

theorem rdropWhile_append_cons {p : Char → Bool} (a : Text) {c : Char} (b : Text)
    (hc : p c = false) : (a ++ c :: b).rdropWhile p = a ++ c :: b.rdropWhile p := by
  have h := dropWhile_append_cons b.reverse a.reverse hc
  simp [List.rdropWhile, h]

theorem trim_append_cons (a : Text) {c : Char} (b : Text) (hc : isBlank c = false) :
    trim (a ++ c :: b) = a.dropWhile isBlank ++ c :: b.rdropWhile isBlank := by
  have h := rdropWhile_append_cons (a.dropWhile isBlank) b hc
  rw [trim, trimBy, dropWhile_append_cons a b hc]
  exact h

theorem trim_append_of_blank {s : Text} (hs : ∀ c ∈ s, isBlank c = true) (t : Text) :
    trim (s ++ t) = trim t := by
  rw [trim, trimBy, List.dropWhile_append_of_pos hs, trim, trimBy]

theorem trim_concat {c : Char} (hc : isBlank c = true) (t : Text) : trim (t ++ [c]) = trim t := by
  rw [trim, trimBy, List.dropWhile_append, trim, trimBy]
  cases ht : t.dropWhile isBlank with
  | nil => simp [hc]
  | cons d r => simp [hc]

theorem trim_rdropWhile (t : Text) : trim (t.rdropWhile isBlank) = trim t := by
  induction t using List.reverseRecOn with
  | nil => rfl
  | append_singleton t c ih =>
    cases hc : isBlank c with
    | true => rw [List.rdropWhile_concat_pos _ _ _ hc, ih, trim_concat hc]
    | false => rw [List.rdropWhile_concat_neg _ _ _ (by simp [hc])]

theorem dropWhile_of_trim {t : Text} (h : trim t = t) : t.dropWhile isBlank = t := by
  rw [← h]
  exact dropWhile_trimBy isBlank t

theorem trim_of_all {t : Text} (h : ∀ c ∈ t, isBlank c = false) : trim t = t := by
  apply trimBy_eq_self
  · intro c hc
    exact h c (List.mem_of_head? hc)
  · intro c hc
    exact h c (List.mem_of_getLast? hc)

theorem rdropWhile_of_all {t : Text} (h : ∀ c ∈ t, isBlank c = false) :
    t.rdropWhile isBlank = t := by
  rw [List.rdropWhile_eq_self_iff]
  intro hne
  simp [h _ (List.getLast_mem hne)]

/-- Not blank at the end. -/
def EndsPlain (t : Text) : Prop := ∀ c, t.getLast? = some c → isBlank c = false

instance (t : Text) : Decidable (EndsPlain t) :=
  decidable_of_iff (t.getLast?.all (fun c => !isBlank c) = true)
    (by simp [EndsPlain, Option.all_eq_true])

theorem endsPlain_of_trim {t : Text} (h : trim t = t) : EndsPlain t := by
  intro c hc
  rw [← h] at hc
  exact getLast?_trimBy hc

theorem EndsPlain.append {s t : Text} (hs : EndsPlain s) (ht : EndsPlain t) :
    EndsPlain (s ++ t) := by
  intro c hc
  rw [List.getLast?_append] at hc
  cases hlast : t.getLast? with
  | none =>
    rw [hlast, Option.none_or] at hc
    exact hs c hc
  | some d =>
    rw [hlast, Option.some_or] at hc
    exact ht c (hlast.trans hc)

theorem EndsPlain.of_append {s t : Text} (h : EndsPlain (s ++ t)) : EndsPlain t := by
  intro c hc
  exact h c (by rw [List.getLast?_append, hc, Option.some_or])

theorem EndsPlain.append_of_ne_nil {t : Text} (h : EndsPlain t) (ht : t ≠ []) (s : Text) :
    EndsPlain (s ++ t) := by
  intro c hc
  rw [List.getLast?_append_of_ne_nil _ ht] at hc
  exact h c hc

theorem trim_eq_self_iff {t : Text} :
    trim t = t ↔ (∀ c, t.head? = some c → isBlank c = false) ∧ EndsPlain t := by
  constructor
  · intro h
    refine ⟨?_, endsPlain_of_trim h⟩
    intro c hc
    rw [← h] at hc
    exact head?_trimBy hc
  · rintro ⟨hfirst, hlast⟩
    exact trimBy_eq_self hfirst hlast

theorem endsPlain_append_iff {t : Text} (ht : t ≠ []) (s : Text) :
    EndsPlain (s ++ t) ↔ EndsPlain t :=
  ⟨EndsPlain.of_append, fun h => h.append_of_ne_nil ht s⟩

theorem EndsPlain.cons {c : Char} {t : Text} (hc : isBlank c = false) (ht : EndsPlain t) :
    EndsPlain (c :: t) := by
  have hone : EndsPlain [c] := fun d hd => Option.some.inj hd ▸ hc
  exact hone.append ht

theorem unquote_of_not_mem {t : Text} (h : '"' ∉ t) : unquote t = t := by
  have hplain : ∀ c ∈ t, (c == '"') = false :=
    fun c hc => beq_eq_false_iff_ne.2 fun he => h (he ▸ hc)
  exact trimBy_eq_self (fun c hc => hplain c (List.mem_of_head? hc))
    fun c hc => hplain c (List.mem_of_getLast? hc)

theorem trimBy_sublist (p : Char → Bool) (t : Text) : (trimBy p t).Sublist t := by
  have hback := List.dropWhile_sublist p (l := (t.dropWhile p).reverse)
  rw [← List.reverse_sublist, List.reverse_reverse] at hback
  exact hback.trans (List.dropWhile_sublist p)

theorem mem_of_mem_trimBy {p : Char → Bool} {t : Text} {c : Char} (h : c ∈ trimBy p t) : c ∈ t :=
  (trimBy_sublist p t).mem h

theorem hasPart_iff {part t : Text} : hasPart part t = true ↔ part <:+: t := by
  induction t with
  | nil => simp [hasPart]
  | cons c t ih => simp [hasPart, ih, List.infix_cons_iff]

theorem isBlank_of_isLowerDigit {c : Char} (h : Hex.isLowerDigit c = true) : isBlank c = false := by
  have hn : (48 ≤ c.toNat ∧ c.toNat ≤ 57) ∨ (97 ≤ c.toNat ∧ c.toNat ≤ 102) := by
    simpa [Hex.isLowerDigit, Char.isDigit, Char.le_def, UInt32.le_iff_toNat_le] using h
  simp [isBlank]
  omega

theorem isBlank_of_isDigit {c : Char} (h : c.isDigit = true) : isBlank c = false :=
  isBlank_of_isLowerDigit (by simp [Hex.isLowerDigit, h])

theorem mem_of_mem_lower {t : Text} {c : Char} (hc : c.toNat < 97 ∨ 122 < c.toNat)
    (h : c ∈ lower t) : c ∈ t := by
  obtain ⟨d, hd, he⟩ := List.mem_map.1 h
  have hn := congrArg Char.toNat he
  rw [toNat_toLower] at hn
  have hdc : d.toNat = c.toNat := by split at hn <;> omega
  rwa [Char.toNat_inj.1 hdc] at hd

theorem toNat_toUpper (c : Char) :
    c.toUpper.toNat = if 97 ≤ c.toNat ∧ c.toNat ≤ 122 then c.toNat - 32 else c.toNat := by
  have hge : (c.val ≥ 'a'.val ∧ c.val ≤ 'z'.val) ↔ 97 ≤ c.toNat ∧ c.toNat ≤ 122 := by
    simp only [ge_iff_le, UInt32.le_iff_toNat_le]
    rfl
  delta Char.toUpper
  by_cases h : 97 ≤ c.toNat ∧ c.toNat ≤ 122
  · rw [dif_pos (hge.2 h), if_pos h]
    have hc : c.val.toNat = c.toNat := rfl
    have hd : ('A'.val - 'a'.val).toNat = 4294967264 := rfl
    change (c.val + ('A'.val - 'a'.val)).toNat = c.toNat - 32
    rw [UInt32.toNat_add, hc, hd]
    omega
  · rw [dif_neg (mt hge.1 h), if_neg h]

theorem toUpper_toUpper (c : Char) : c.toUpper.toUpper = c.toUpper := by
  apply Char.toNat_inj.1
  rw [toNat_toUpper c.toUpper, toNat_toUpper]
  by_cases h : 97 ≤ c.toNat ∧ c.toNat ≤ 122
  · rw [if_pos h, if_neg (by omega)]
  · rw [if_neg h, if_neg h]

theorem upper_upper (t : Text) : upper (upper t) = upper t := by
  rw [upper, upper, List.map_map]
  exact List.map_congr_left fun c _ => toUpper_toUpper c

theorem isBlank_toUpper (c : Char) : isBlank c.toUpper = isBlank c := by
  simp only [isBlank, toNat_toUpper]
  split
  · rename_i h
    obtain ⟨hlow, hhigh⟩ := h
    generalize c.toNat = n at hlow hhigh ⊢
    rw [Bool.eq_iff_iff]
    simp
    omega
  · rfl

theorem mem_of_mem_upper {t : Text} {c : Char} (hc : c.toNat < 65 ∨ 90 < c.toNat)
    (h : c ∈ upper t) : c ∈ t := by
  obtain ⟨d, hd, he⟩ := List.mem_map.1 h
  have hn := congrArg Char.toNat he
  rw [toNat_toUpper] at hn
  have hdc : d.toNat = c.toNat := by split at hn <;> omega
  rwa [Char.toNat_inj.1 hdc] at hd

theorem toLower_toUpper (c : Char) : c.toUpper.toLower = c.toLower := by
  apply Char.toNat_inj.1
  rw [toNat_toLower, toNat_toUpper, toNat_toLower]
  by_cases h : 97 ≤ c.toNat ∧ c.toNat ≤ 122
  · rw [if_pos h, if_pos (by omega), if_neg (by omega)]
    omega
  · rw [if_neg h]

theorem lower_intercalate (sep : Text) (ls : List Text) :
    lower (sep.intercalate ls) = (lower sep).intercalate (ls.map lower) := by
  induction ls with
  | nil => rfl
  | cons l ls ih =>
    cases ls with
    | nil => simp [List.intercalate]
    | cons k ls => simpa [List.intercalate, lower] using ih

theorem not_mem_of_mem_splitOn {sep : Char} {t u : Text} (h : u ∈ t.splitOn sep) : sep ∉ u := by
  induction t generalizing u with
  | nil =>
    obtain rfl : u = [] := List.mem_singleton.1 h
    exact List.not_mem_nil
  | cons c t ih =>
    rw [List.splitOn_cons_eq_if_modifyHead] at h
    by_cases hc : c = sep
    · simp only [hc, beq_self_eq_true, if_true, List.mem_cons] at h
      cases h with
      | inl h => simp [h]
      | inr h => exact ih h
    · cases hs : t.splitOn sep with
      | nil => exact absurd hs (List.splitOn_ne_nil sep t)
      | cons x xs =>
        simp only [hs, beq_iff_eq, hc, if_false, List.modifyHead_cons, List.mem_cons] at h
        cases h with
        | inl h =>
          have hx : sep ∉ x := ih (by simp [hs])
          simp [h, Ne.symm hc, hx]
        | inr h => exact ih (by simp [hs, h])

theorem mem_of_mem_splitOn {sep c : Char} {t u : Text} (h : u ∈ t.splitOn sep) (hc : c ∈ u) :
    c ∈ t := by
  induction t generalizing u with
  | nil =>
    obtain rfl : u = [] := List.mem_singleton.1 h
    cases hc
  | cons d t ih =>
    rw [List.splitOn_cons_eq_if_modifyHead] at h
    by_cases hd : d = sep
    · simp only [hd, beq_self_eq_true, if_true, List.mem_cons] at h
      cases h with
      | inl h => simp [h] at hc
      | inr h => exact List.mem_cons_of_mem d (ih h hc)
    · cases hs : t.splitOn sep with
      | nil => exact absurd hs (List.splitOn_ne_nil sep t)
      | cons x xs =>
        simp only [hs, beq_iff_eq, hd, if_false, List.modifyHead_cons, List.mem_cons] at h
        cases h with
        | inl h =>
          rw [h, List.mem_cons] at hc
          cases hc with
          | inl hc => exact hc ▸ List.mem_cons_self
          | inr hc => exact List.mem_cons_of_mem d (ih (by simp [hs]) hc)
        | inr h => exact List.mem_cons_of_mem d (ih (by simp [hs, h]) hc)

theorem splitOn_concat {sep c : Char} (hc : c ≠ sep) (t : Text) :
    ∃ front last, t.splitOn sep = front ++ [last] ∧
      (t ++ [c]).splitOn sep = front ++ [last ++ [c]] := by
  induction t with
  | nil => exact ⟨[], [], by simp, by simp [List.splitOn_cons_eq_if_modifyHead, hc]⟩
  | cons d t ih =>
    obtain ⟨front, last, ht, htc⟩ := ih
    by_cases hd : d = sep
    · refine ⟨[] :: front, last, ?_, ?_⟩
      · simp [List.splitOn_cons_eq_if_modifyHead, hd, ht]
      · simp [List.splitOn_cons_eq_if_modifyHead, hd, htc]
    · cases front with
      | nil =>
        refine ⟨[], d :: last, ?_, ?_⟩
        · simp [List.splitOn_cons_eq_if_modifyHead, hd, ht]
        · simp [List.splitOn_cons_eq_if_modifyHead, hd, htc]
      | cons x xs =>
        refine ⟨(d :: x) :: xs, last, ?_, ?_⟩
        · simp [List.splitOn_cons_eq_if_modifyHead, hd, ht]
        · simp [List.splitOn_cons_eq_if_modifyHead, hd, htc]

theorem endsPlain_intercalate_iff {s : Text} {ss : List Text} (h : ∀ t ∈ s :: ss, trim t = t)
    (hss : ss ≠ []) : EndsPlain ([' '].intercalate (s :: ss)) ↔ ss.getLast hss ≠ [] := by
  induction ss generalizing s with
  | nil => exact absurd rfl hss
  | cons t ss ih =>
    have htail : ∀ u ∈ t :: ss, trim u = u := fun u hu => h u (List.mem_cons_of_mem s hu)
    rw [List.intercalate_cons_cons]
    cases ss with
    | nil =>
      obtain rfl | hne := eq_or_ne t []
      · simp [List.intercalate, EndsPlain, isBlank]
      · have htrim : EndsPlain t := endsPlain_of_trim (htail t List.mem_cons_self)
        simpa [List.intercalate, hne] using (endsPlain_append_iff hne (s ++ [' '])).2 htrim
    | cons u ss =>
      have hne : [' '].intercalate (t :: u :: ss) ≠ [] := by simp [List.intercalate]
      rw [endsPlain_append_iff hne, ih htail (List.cons_ne_nil u ss),
        List.getLast_cons (List.cons_ne_nil u ss)]

theorem trim_intercalate_iff {s : Text} {ss : List Text} (h : ∀ t ∈ s :: ss, trim t = t) :
    trim ([' '].intercalate (s :: ss)) = [' '].intercalate (s :: ss) ↔
      ∀ hss : ss ≠ [], s ≠ [] ∧ ss.getLast hss ≠ [] := by
  cases ss with
  | nil => simpa [List.intercalate] using h s List.mem_cons_self
  | cons t ss =>
    have hfirst : (∀ c, ([' '].intercalate (s :: t :: ss)).head? = some c → isBlank c = false) ↔
        s ≠ [] := by
      cases hs : s with
      | nil => simp [List.intercalate, isBlank]
      | cons c s' =>
        have htrim := (trim_eq_self_iff.1 (h s List.mem_cons_self)).1
        rw [hs] at htrim
        simpa [List.intercalate] using htrim
    rw [trim_eq_self_iff, hfirst, endsPlain_intercalate_iff h (List.cons_ne_nil t ss)]
    simp

end SipTestbed.Text
