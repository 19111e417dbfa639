import Mathlib.Data.List.DropRight
import SipTestbed.Text.Basic

/-! Where texts are cut, what trimming leaves, and what lower case keeps. -/
namespace SipTestbed.Text

theorem cutBy?_eq_none_iff {p : Char → Bool} {t : Text} :
    cutBy? p t = none ↔ ∀ c ∈ t, p c = false := by
  induction t with
  | nil => simp [cutBy?]
  | cons c r ih =>
    cases h : p c <;> simp [cutBy?, h, ih]

theorem cutBy?_append {p : Char → Bool} {a : Text} (ha : ∀ x ∈ a, p x = false) {c : Char}
    (hc : p c = true) (b : Text) : cutBy? p (a ++ c :: b) = some (a, b) := by
  induction a with
  | nil => simp [cutBy?, hc]
  | cons x a ih =>
    obtain ⟨hx, hrest⟩ := List.forall_mem_cons.1 ha
    simp [cutBy?, hx, ih hrest]

theorem cutBy?_eq_some_iff {p : Char → Bool} {t a b : Text} :
    cutBy? p t = some (a, b) ↔ ∃ c, t = a ++ c :: b ∧ p c = true ∧ ∀ x ∈ a, p x = false := by
  constructor
  · intro h
    induction t generalizing a with
    | nil => cases h
    | cons d r ih =>
      rw [cutBy?] at h
      split at h
      · rename_i hd
        obtain ⟨rfl, rfl⟩ := Prod.mk.inj (Option.some.inj h)
        exact ⟨d, rfl, hd, List.forall_mem_nil _⟩
      · rename_i hd
        obtain ⟨⟨a', b'⟩, hr, hparts⟩ := Option.map_eq_some_iff.1 h
        obtain ⟨rfl, rfl⟩ := Prod.mk.inj hparts
        obtain ⟨c, rfl, hc, hall⟩ := ih hr
        exact ⟨c, rfl, hc, List.forall_mem_cons.2 ⟨Bool.eq_false_iff.2 hd, hall⟩⟩
  · rintro ⟨c, rfl, hc, hall⟩
    exact cutBy?_append hall hc b

theorem cut?_eq_none_iff {sep : Char} {t : Text} : cut? sep t = none ↔ sep ∉ t := by
  rw [cut?, cutBy?_eq_none_iff]
  simp only [beq_eq_false_iff_ne]
  exact ⟨fun h hm => h sep hm rfl, fun h c hc he => h (he ▸ hc)⟩

theorem cut?_eq_some_iff {sep : Char} {t a b : Text} :
    cut? sep t = some (a, b) ↔ t = a ++ sep :: b ∧ sep ∉ a := by
  rw [cut?, cutBy?_eq_some_iff]
  simp only [beq_iff_eq, beq_eq_false_iff_ne]
  constructor
  · rintro ⟨c, ht, rfl, hall⟩
    exact ⟨ht, fun hm => hall c hm rfl⟩
  · rintro ⟨ht, hn⟩
    exact ⟨sep, ht, rfl, fun x hx he => hn (he ▸ hx)⟩

theorem cutLast?_eq_none_iff {sep : Char} {t : Text} : cutLast? sep t = none ↔ sep ∉ t := by
  simp [cutLast?, cut?_eq_none_iff]

theorem cutLast?_eq_some_iff {sep : Char} {t a b : Text} :
    cutLast? sep t = some (a, b) ↔ t = a ++ sep :: b ∧ sep ∉ b := by
  simp only [cutLast?, Option.map_eq_some_iff, Prod.exists, Prod.mk.injEq, cut?_eq_some_iff]
  constructor
  · rintro ⟨x, y, ⟨ht, hn⟩, rfl, rfl⟩
    exact ⟨by simpa using congrArg List.reverse ht, by simpa using hn⟩
  · rintro ⟨rfl, hn⟩
    exact ⟨b.reverse, a.reverse, ⟨by simp, by simpa using hn⟩, by simp, by simp⟩

theorem trimBy_eq (p : Char → Bool) (t : Text) : trimBy p t = (t.dropWhile p).rdropWhile p := rfl

theorem trimBy_eq_self {p : Char → Bool} {t : Text} (h : ∀ c, t.head? = some c → p c = false)
    (h' : ∀ c, t.getLast? = some c → p c = false) : trimBy p t = t := by
  have hfront : t.dropWhile p = t := by
    rw [List.dropWhile_eq_self_iff]
    intro hl
    simp [h t[0] (List.head?_eq_getElem?.trans (List.getElem?_eq_getElem hl))]
  have hback : t.rdropWhile p = t := by
    rw [List.rdropWhile_eq_self_iff]
    intro hne
    simp [h' (t.getLast hne) (List.getLast?_eq_some_getLast hne)]
  rw [trimBy_eq, hfront, hback]

theorem getLast?_trimBy {p : Char → Bool} {t : Text} {c : Char}
    (h : (trimBy p t).getLast? = some c) : p c = false := by
  have hlast := List.head?_dropWhile_not p (t.dropWhile p).reverse
  rw [trimBy, List.getLast?_reverse] at h
  rwa [h] at hlast

theorem head?_trimBy {p : Char → Bool} {t : Text} {c : Char}
    (h : (trimBy p t).head? = some c) : p c = false := by
  have hfirst := List.head?_dropWhile_not p t
  obtain ⟨s, hs⟩ := List.rdropWhile_prefix p (t.dropWhile p)
  rw [← hs, ← trimBy_eq, List.head?_append, h] at hfirst
  exact hfirst

theorem trimBy_trimBy (p : Char → Bool) (t : Text) : trimBy p (trimBy p t) = trimBy p t :=
  trimBy_eq_self (fun _ => head?_trimBy) (fun _ => getLast?_trimBy)

theorem dropWhile_trimBy (p : Char → Bool) (t : Text) :
    (trimBy p t).dropWhile p = trimBy p t := by
  cases h : trimBy p t with
  | nil => rfl
  | cons c r =>
    have hc : p c = false := head?_trimBy (by rw [h, List.head?_cons])
    exact List.dropWhile_cons_of_neg (by simp [hc])

theorem trim_trim (t : Text) : trim (trim t) = trim t := trimBy_trimBy isBlank t

theorem toNat_toLower (c : Char) :
    c.toLower.toNat = if 65 ≤ c.toNat ∧ c.toNat ≤ 90 then c.toNat + 32 else c.toNat := by
  have hge : (c.val ≥ 'A'.val ∧ c.val ≤ 'Z'.val) ↔ 65 ≤ c.toNat ∧ c.toNat ≤ 90 := by
    simp only [ge_iff_le, UInt32.le_iff_toNat_le]
    rfl
  delta Char.toLower
  by_cases h : 65 ≤ c.toNat ∧ c.toNat ≤ 90
  · rw [dif_pos (hge.2 h), if_pos h]
    have hc : c.val.toNat = c.toNat := rfl
    have hd : ('a'.val - 'A'.val).toNat = 32 := rfl
    change (c.val + ('a'.val - 'A'.val)).toNat = c.toNat + 32
    rw [UInt32.toNat_add, hc, hd]
    omega
  · rw [dif_neg (mt hge.1 h), if_neg h]

theorem toLower_toLower (c : Char) : c.toLower.toLower = c.toLower := by
  apply Char.toNat_inj.1
  rw [toNat_toLower c.toLower, toNat_toLower]
  by_cases h : 65 ≤ c.toNat ∧ c.toNat ≤ 90
  · rw [if_pos h, if_neg (by omega)]
  · rw [if_neg h, if_neg h]

theorem lower_lower (t : Text) : lower (lower t) = lower t := by
  rw [lower, lower, List.map_map]
  exact List.map_congr_left fun c _ => toLower_toLower c

theorem isBlank_toLower (c : Char) : isBlank c.toLower = isBlank c := by
  simp only [isBlank, toNat_toLower]
  split
  · rename_i h
    obtain ⟨hlow, hhigh⟩ := h
    generalize c.toNat = n at hlow hhigh ⊢
    rw [Bool.eq_iff_iff]
    simp
    omega
  · rfl

theorem trim_lower (t : Text) : trim (lower t) = lower (trim t) := by
  have hblank : isBlank ∘ Char.toLower = isBlank := funext isBlank_toLower
  simp only [trim, trimBy, lower, List.dropWhile_map, ← List.map_reverse, hblank]

theorem sameWord_symm {a b : Text} : sameWord a b = sameWord b a := by
  simp only [sameWord, Bool.beq_comm]

theorem sameWord_trans {a b c : Text} (h : sameWord a b = true) :
    sameWord a c = sameWord b c := by
  rw [sameWord, beq_iff_eq] at h
  rw [sameWord, sameWord, h]

end SipTestbed.Text
