import SipTestbed.Text.Basic

/-! Unsigned decimal numbers in texts, with an upper limit. What is written is read back, and digits
without a zero in front of them are as their number is written. -/
namespace SipTestbed.Decimal

def write (n : Nat) : Text := Nat.toDigits 10 n

def unsigned : Text → Text
  | '+' :: ds => ds
  | ds => ds

/-- The value of a text of one or more digits, with leading zeros allowed, when it is within the limit. -/
def digits? (limit : Nat) (ds : Text) : Option Nat :=
  if ds.isEmpty || !ds.all Char.isDigit then none
  else if Nat.ofDigitChars 10 ds 0 ≤ limit then some (Nat.ofDigitChars 10 ds 0) else none

def read? (limit : Nat) (t : Text) : Option Nat := digits? limit (unsigned t)

def readU16? (t : Text) : Option UInt16 := (read? 65535 t).map UInt16.ofNat
def readU64? (t : Text) : Option Nat := read? 18446744073709551615 t

/-- Digits of a number, with or without zeros in front. -/
structure Writes (n : Nat) (ds : Text) : Prop where
  ne_nil : ds ≠ []
  isDigit : ∀ c ∈ ds, c.isDigit = true
  value : Nat.ofDigitChars 10 ds 0 = n

theorem digits?_eq_some_iff {limit n : Nat} {ds : Text} :
    digits? limit ds = some n ↔ Writes n ds ∧ n ≤ limit := by
  constructor
  · intro h
    rw [digits?] at h
    split at h
    · cases h
    · rename_i hdigits
      simp only [Bool.or_eq_true, not_or, Bool.not_eq_true, Bool.not_eq_false', List.isEmpty_iff,
        List.all_eq_true] at hdigits
      split at h
      · rename_i hle
        obtain rfl := Option.some.inj h
        exact ⟨⟨hdigits.1, hdigits.2, rfl⟩, hle⟩
      · cases h
  · rintro ⟨⟨hne, hdigit, rfl⟩, hle⟩
    have hall : ds.all Char.isDigit = true := List.all_eq_true.2 hdigit
    simp [digits?, hne, hall, hle]

/-- A number is read with one plus sign in front, or with none. -/
theorem read?_eq_some_iff {limit n : Nat} {t : Text} : read? limit t = some n ↔
    ∃ sign ds, t = sign ++ ds ∧ sign ∈ [[], ['+']] ∧ Writes n ds ∧ n ≤ limit := by
  rw [read?, digits?_eq_some_iff]
  constructor
  · rintro ⟨hwrites, hle⟩
    unfold unsigned at hwrites
    split at hwrites
    · exact ⟨['+'], _, rfl, by simp, hwrites, hle⟩
    · exact ⟨[], _, rfl, by simp, hwrites, hle⟩
  · rintro ⟨sign, ds, rfl, hsign, hwrites, hle⟩
    simp only [List.mem_cons, List.not_mem_nil, or_false] at hsign
    obtain rfl | rfl := hsign
    · have hds : unsigned ds = ds := by
        unfold unsigned
        split
        · have hplus := hwrites.isDigit '+' List.mem_cons_self
          cases hplus
        · rfl
      rw [List.nil_append, hds]
      exact ⟨hwrites, hle⟩
    · exact ⟨hwrites, hle⟩

theorem isDigit_of_mem_write {n : Nat} {c : Char} (h : c ∈ write n) : c.isDigit = true :=
  Nat.isDigit_of_mem_toDigits (by decide) (by decide) h

theorem writes_write (n : Nat) : Writes n (write n) where
  ne_nil := Nat.toDigits_ne_nil
  isDigit _ := isDigit_of_mem_write
  value := Nat.ofDigitChars_ten_toDigits

theorem digits?_write {limit n : Nat} (h : n ≤ limit) : digits? limit (write n) = some n :=
  digits?_eq_some_iff.2 ⟨writes_write n, h⟩

theorem read?_write {limit n : Nat} (h : n ≤ limit) : read? limit (write n) = some n :=
  read?_eq_some_iff.2 ⟨[], write n, rfl, List.mem_cons_self, writes_write n, h⟩

theorem readU16?_eq_some_iff {t : Text} {n : UInt16} : readU16? t = some n ↔
    ∃ sign ds, t = sign ++ ds ∧ sign ∈ [[], ['+']] ∧ Writes n.toNat ds := by
  rw [readU16?, Option.map_eq_some_iff]
  constructor
  · rintro ⟨k, hk, rfl⟩
    obtain ⟨sign, ds, ht, hsign, hds, hle⟩ := read?_eq_some_iff.1 hk
    have hvalue : (UInt16.ofNat k).toNat = k := UInt16.toNat_ofNat_of_lt' (Nat.lt_succ_of_le hle)
    exact ⟨sign, ds, ht, hsign, hvalue.symm ▸ hds⟩
  · rintro ⟨sign, ds, ht, hsign, hds⟩
    have hle : n.toNat ≤ 65535 := Nat.le_of_lt_succ n.toNat_lt
    exact ⟨n.toNat, read?_eq_some_iff.2 ⟨sign, ds, ht, hsign, hds, hle⟩, UInt16.ofNat_toNat⟩

theorem readU16?_write (n : UInt16) : readU16? (write n.toNat) = some n :=
  readU16?_eq_some_iff.2 ⟨[], write n.toNat, rfl, List.mem_cons_self, writes_write n.toNat⟩

theorem readU64?_write {n : Nat} (h : n ≤ 18446744073709551615) : readU64? (write n) = some n :=
  read?_write h

theorem zero_write {n : Nat} {ds : Text} (h : write n = '0' :: ds) : ds = [] := by
  induction n using Nat.strongRecOn generalizing ds with
  | ind n ih =>
    rw [write] at h
    by_cases hn : n < 10
    · rw [Nat.toDigits_of_lt_base hn] at h
      exact (List.cons.inj h).2.symm
    · obtain ⟨c, r, hr⟩ := List.exists_cons_of_ne_nil (Nat.toDigits_ne_nil (n := n / 10) (b := 10))
      rw [Nat.toDigits_of_base_le (by decide) (by omega), hr] at h
      have hc : c = '0' := (List.cons.inj h).1
      have hrest : r = [] := ih (n / 10) (by omega) (hc ▸ hr)
      have hvalue : Nat.ofDigitChars 10 (Nat.toDigits 10 (n / 10)) 0 = n / 10 :=
        Nat.ofDigitChars_ten_toDigits
      rw [hr, hc, hrest] at hvalue
      exact absurd (show 0 = n / 10 from hvalue) (by omega)

theorem write_digit {c : Char} (hc : c.isDigit = true) :
    c.toNat - '0'.toNat < 10 ∧ write (c.toNat - '0'.toNat) = [c] := by
  simp only [Char.isDigit, Bool.and_eq_true, decide_eq_true_eq, ge_iff_le,
    UInt32.le_iff_toNat_le] at hc
  have hlow : 48 ≤ c.toNat := hc.1
  have hhigh : c.toNat ≤ 57 := hc.2
  have hlt : c.toNat - '0'.toNat < 10 := show c.toNat - 48 < 10 by omega
  refine ⟨hlt, ?_⟩
  rw [write, Nat.toDigits_of_lt_base hlt]
  refine congrArg (fun d => [d]) (Char.toNat_inj.1 ?_)
  rw [Nat.toNat_digitChar_of_lt_ten hlt]
  exact Nat.add_sub_cancel' hlow

theorem write_ofDigitChars_of_pos {ds : Text} (hdigit : ∀ c ∈ ds, c.isDigit = true) {n : Nat}
    (hn : 0 < n) : write (Nat.ofDigitChars 10 ds n) = write n ++ ds := by
  induction ds generalizing n with
  | nil => rw [Nat.ofDigitChars_nil, List.append_nil]
  | cons c ds ih =>
    obtain ⟨hlt, hc⟩ := write_digit (hdigit c List.mem_cons_self)
    have hnext : write (10 * n + (c.toNat - '0'.toNat)) = write n ++ [c] := by
      rw [write, ← Nat.toDigits_append_toDigits (by decide) hn hlt]
      exact congrArg (write n ++ ·) hc
    rw [Nat.ofDigitChars_cons, ih (fun d hd => hdigit d (List.mem_cons_of_mem c hd)) (by omega),
      hnext, List.append_assoc, List.singleton_append]

theorem write_ofDigitChars {ds : Text} (hne : ds ≠ []) (hdigit : ∀ c ∈ ds, c.isDigit = true)
    (hzero : ∀ r, ds = '0' :: r → r = []) : write (Nat.ofDigitChars 10 ds 0) = ds := by
  obtain ⟨c, r, rfl⟩ := List.exists_cons_of_ne_nil hne
  obtain ⟨-, hc⟩ := write_digit (hdigit c List.mem_cons_self)
  rw [Nat.ofDigitChars_cons, Nat.mul_zero, Nat.zero_add]
  by_cases hfirst : c.toNat - '0'.toNat = 0
  · rw [hfirst] at hc
    obtain rfl : c = '0' := (List.cons.inj hc).1.symm
    rw [hzero r rfl]
    rfl
  · rw [write_ofDigitChars_of_pos (fun d hd => hdigit d (List.mem_cons_of_mem c hd))
      (Nat.pos_of_ne_zero hfirst), hc, List.singleton_append]

end SipTestbed.Decimal
