import SipTestbed.Text.Basic

/-! Texts as octets in UTF-8. Reading is strict: a group of octets stands for a character only if
it is what writing that character gives, so overlong forms and surrogates are refused.
So reading accepts exactly what writing produces. -/
namespace SipTestbed.Utf8

abbrev Octets := List UInt8

def encode (t : Text) : Octets := t.flatMap String.utf8EncodeChar

/-- One character with scalar value `v`, read from `group`, before the text of what follows. -/
def accept (group : Octets) (v : Nat) (rest : Option Text) : Option Text :=
  if String.utf8EncodeChar (Char.ofNat v) = group then rest.map (Char.ofNat v :: ·) else none

def low (b : UInt8) : Nat := b.toNat % 64

/-- The text that octets stand for; the first octet of a group tells its length. -/
def decode? : Octets → Option Text
  | [] => some []
  | a :: r =>
    if a < 0x80 then accept [a] a.toNat (decode? r)
    else match r with
      | [] => none
      | b :: r =>
        if a < 0xE0 then accept [a, b] (a.toNat % 32 * 64 + low b) (decode? r)
        else match r with
          | [] => none
          | c :: r =>
            if a < 0xF0 then
              accept [a, b, c] (a.toNat % 16 * 4096 + low b * 64 + low c) (decode? r)
            else match r with
              | [] => none
              | d :: r =>
                accept [a, b, c, d]
                  (a.toNat % 8 * 262144 + low b * 4096 + low c * 64 + low d) (decode? r)

theorem accept_eq_some_iff {group : Octets} {v : Nat} {rest : Option Text} {t : Text} :
    accept group v rest = some t ↔
      String.utf8EncodeChar (Char.ofNat v) = group ∧
        ∃ u, rest = some u ∧ Char.ofNat v :: u = t := by
  rw [accept]
  by_cases hg : String.utf8EncodeChar (Char.ofNat v) = group
  · rw [if_pos hg, Option.map_eq_some_iff]
    exact (and_iff_right hg).symm
  · rw [if_neg hg]
    constructor
    · intro h
      cases h
    · intro h
      exact absurd h.1 hg

theorem encode_cons (c : Char) (t : Text) : encode (c :: t) = String.utf8EncodeChar c ++ encode t :=
  rfl

theorem eq_encode_of_accept {group r : Octets} {v : Nat} {t : Text}
    (ih : ∀ {u : Text}, decode? r = some u → r = encode u)
    (h : accept group v (decode? r) = some t) : group ++ r = encode t := by
  obtain ⟨hg, u, hu, rfl⟩ := accept_eq_some_iff.1 h
  rw [encode_cons, hg, ← ih hu]

theorem eq_encode_of_decode? {bs : Octets} {t : Text} (h : decode? bs = some t) :
    bs = encode t := by
  fun_induction decode? bs generalizing t with
  | case1 =>
    cases h
    rfl
  | case2 a r ha ih => exact eq_encode_of_accept ih h
  | case3 => cases h
  | case4 a ha b r hb ih => exact eq_encode_of_accept ih h
  | case5 => cases h
  | case6 a ha b hb c r hc ih => exact eq_encode_of_accept ih h
  | case7 => cases h
  | case8 a ha b hb c hc d r ih => exact eq_encode_of_accept ih h

theorem toNat_ofNat {n : Nat} (h : n < 256) : (UInt8.ofNat n).toNat = n :=
  UInt8.toNat_ofNat_of_lt' h

theorem accept_encode {c : Char} {group : Octets} {v : Nat} (hg : String.utf8EncodeChar c = group)
    (hv : c.toNat = v) (rest : Option Text) : accept group v rest = rest.map (c :: ·) := by
  subst hv
  simp [accept, hg]

theorem decode?_one {a : UInt8} (h : a.toNat < 0x80) (r : Octets) :
    decode? (a :: r) = accept [a] a.toNat (decode? r) := by
  rw [decode?.eq_def]
  simp [UInt8.lt_iff_toNat_lt, h]

theorem decode?_two {a : UInt8} (h : 0x80 ≤ a.toNat) (h' : a.toNat < 0xE0) (b : UInt8)
    (r : Octets) :
    decode? (a :: b :: r) = accept [a, b] (a.toNat % 32 * 64 + low b) (decode? r) := by
  rw [decode?.eq_def]
  simp [UInt8.lt_iff_toNat_lt, h', Nat.not_lt.2 h]

theorem decode?_three {a : UInt8} (h : 0xE0 ≤ a.toNat) (h' : a.toNat < 0xF0) (b c : UInt8)
    (r : Octets) :
    decode? (a :: b :: c :: r) =
      accept [a, b, c] (a.toNat % 16 * 4096 + low b * 64 + low c) (decode? r) := by
  have h1 : ¬ a.toNat < 0x80 := by omega
  rw [decode?.eq_def]
  simp [UInt8.lt_iff_toNat_lt, h', h1, Nat.not_lt.2 h]

theorem decode?_four {a : UInt8} (h : 0xF0 ≤ a.toNat) (b c d : UInt8) (r : Octets) :
    decode? (a :: b :: c :: d :: r) =
      accept [a, b, c, d] (a.toNat % 8 * 262144 + low b * 4096 + low c * 64 + low d)
        (decode? r) := by
  have h1 : ¬ a.toNat < 0x80 := by omega
  have h2 : ¬ a.toNat < 0xE0 := by omega
  rw [decode?.eq_def]
  simp [UInt8.lt_iff_toNat_lt, h1, h2, Nat.not_lt.2 h]

theorem toNat_lt (c : Char) : c.toNat < 0x110000 := by
  have h : c.val.isValidChar := c.valid
  simp only [UInt32.isValidChar, Nat.isValidChar] at h
  simp only [Char.toNat]
  omega

theorem encodeChar_eq (c : Char) : String.utf8EncodeChar c =
    if c.toNat ≤ 127 then [UInt8.ofNat c.toNat]
    else if c.toNat ≤ 2047 then
      [UInt8.ofNat (c.toNat / 64 % 32 + 192), UInt8.ofNat (c.toNat % 64 + 128)]
    else if c.toNat ≤ 65535 then
      [UInt8.ofNat (c.toNat / 4096 % 16 + 224), UInt8.ofNat (c.toNat / 64 % 64 + 128),
        UInt8.ofNat (c.toNat % 64 + 128)]
    else
      [UInt8.ofNat (c.toNat / 262144 % 8 + 240), UInt8.ofNat (c.toNat / 4096 % 64 + 128),
        UInt8.ofNat (c.toNat / 64 % 64 + 128), UInt8.ofNat (c.toNat % 64 + 128)] := rfl

theorem low_continuation (n : Nat) : low (UInt8.ofNat (n % 64 + 128)) = n % 64 := by
  rw [low, toNat_ofNat (by omega)]
  omega

theorem decode?_encodeChar_append (c : Char) (r : Octets) :
    decode? (String.utf8EncodeChar c ++ r) = (decode? r).map (c :: ·) := by
  have hlt := toNat_lt c
  have hgroup := encodeChar_eq c
  generalize hn : c.toNat = n at hlt hgroup
  by_cases h1 : n ≤ 127
  · rw [if_pos h1] at hgroup
    have ha := toNat_ofNat (n := n) (by omega)
    rw [hgroup, List.singleton_append, decode?_one (by omega)]
    exact accept_encode hgroup (hn.trans ha.symm) _
  rw [if_neg h1] at hgroup
  by_cases h2 : n ≤ 2047
  · rw [if_pos h2] at hgroup
    have ha := toNat_ofNat (n := n / 64 % 32 + 192) (by omega)
    rw [hgroup, List.cons_append, List.singleton_append, decode?_two (by omega) (by omega)]
    apply accept_encode hgroup
    rw [ha, low_continuation]
    omega
  rw [if_neg h2] at hgroup
  by_cases h3 : n ≤ 65535
  · rw [if_pos h3] at hgroup
    have ha := toNat_ofNat (n := n / 4096 % 16 + 224) (by omega)
    rw [hgroup, List.cons_append, List.cons_append, List.singleton_append,
      decode?_three (by omega) (by omega)]
    apply accept_encode hgroup
    rw [ha, low_continuation, low_continuation]
    omega
  rw [if_neg h3] at hgroup
  have ha := toNat_ofNat (n := n / 262144 % 8 + 240) (by omega)
  rw [hgroup, List.cons_append, List.cons_append, List.cons_append, List.singleton_append,
    decode?_four (by omega)]
  apply accept_encode hgroup
  rw [ha, low_continuation, low_continuation, low_continuation]
  omega

theorem decode?_encode_append (t : Text) (r : Octets) :
    decode? (encode t ++ r) = (decode? r).map (t ++ ·) := by
  induction t with
  | nil => simp [encode]
  | cons c t ih =>
    rw [encode_cons, List.append_assoc, decode?_encodeChar_append, ih, Option.map_map]
    rfl

theorem decode?_encode (t : Text) : decode? (encode t) = some t := by
  simpa [decode?] using decode?_encode_append t []

end SipTestbed.Utf8
