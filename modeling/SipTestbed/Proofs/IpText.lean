import SipTestbed.Net.IpAddr
import SipTestbed.Proofs.Text

/-! The text of an IP address is read back as that address: four numbers, eight groups, eight
groups with their longest run of zeros left out, or an IPv4 address in an IPv6 one. -/
namespace SipTestbed.IpAddr

theorem octet?_write (n : UInt8) : octet? (Decimal.write n.toNat) = some n := by
  have all : ∀ m : Fin 256, octet? (Decimal.write m.val) = some (UInt8.ofNat m.val) := by
    decide +kernel
  simpa using all ⟨n.toNat, n.toNat_lt⟩

theorem not_mem_write {c : Char} (hc : c.isDigit = false) (n : Nat) : c ∉ Decimal.write n := by
  intro h
  simp [Decimal.isDigit_of_mem_write h] at hc

theorem readV4?_writeV4 (a b c d : UInt8) : readV4? (writeV4 a b c d) = some (a, b, c, d) := by
  have hs : (writeV4 a b c d).splitOn '.' = [a, b, c, d].map fun n => Decimal.write n.toNat := by
    apply List.splitOn_intercalate
    · intro l hl
      obtain ⟨n, _, rfl⟩ := List.mem_map.1 hl
      exact not_mem_write (by decide) _
    · simp
  simp [readV4?, hs, octet?_write]

theorem readV4?_of_not_mem {t : Text} (h : '.' ∉ t) : readV4? t = none := by
  simp [readV4?, List.splitOn_eq_singleton h]

def hex (n : Nat) : Text := Nat.toDigits 16 n

theorem hex_of_lt {n : Nat} (h : n < 16) : hex n = [Nat.digitChar n] := Nat.toDigits_of_lt_base h

theorem hex_of_le {n : Nat} (h : 16 ≤ n) : hex n = hex (n / 16) ++ [Nat.digitChar (n % 16)] :=
  Nat.toDigits_of_base_le (by decide) h

theorem isLowerDigit_of_mem_hex (n : Nat) : ∀ c ∈ hex n, Hex.isLowerDigit c = true := by
  induction n using Nat.strongRecOn with
  | ind n ih =>
    intro c hc
    by_cases h : n < 16
    · rw [hex_of_lt h, List.mem_singleton] at hc
      rw [hc]
      exact Hex.isLowerDigit_digitChar h
    · rw [hex_of_le (by omega), List.mem_append, List.mem_singleton] at hc
      cases hc with
      | inl hc => exact ih (n / 16) (by omega) c hc
      | inr hc =>
        rw [hc]
        exact Hex.isLowerDigit_digitChar (by omega)

theorem not_mem_hex {c : Char} (hc : Hex.isLowerDigit c = false) (n : Nat) : c ∉ hex n := by
  intro h
  simp [isLowerDigit_of_mem_hex n c h] at hc

theorem value?_hex (n : Nat) :
    ∃ ds, (hex n).mapM Hex.value? = some ds ∧ ds.foldl (fun n d => 16 * n + d) 0 = n := by
  induction n using Nat.strongRecOn with
  | ind n ih =>
    by_cases h : n < 16
    · exact ⟨[n], by simp [hex_of_lt h, Hex.value?_digitChar h], by simp⟩
    · obtain ⟨ds, hds, hn⟩ := ih (n / 16) (by omega)
      have hd : n % 16 < 16 := by omega
      refine ⟨ds ++ [n % 16], ?_, ?_⟩
      · rw [hex_of_le (by omega), List.mapM_append, hds]
        simp [Hex.value?_digitChar hd]
      · rw [List.foldl_append, hn]
        simp only [List.foldl_cons, List.foldl_nil]
        omega

theorem hex_ne_nil (n : Nat) : hex n ≠ [] := Nat.toDigits_ne_nil

theorem group?_hex (g : UInt16) : group? (hex g.toNat) = some g := by
  have hlen : (hex g.toNat).length ≤ 4 :=
    (Nat.length_toDigits_le_iff (by decide) (by decide)).2 g.toNat_lt
  obtain ⟨ds, hds, hn⟩ := value?_hex g.toNat
  simp [group?, hex_ne_nil, Nat.not_lt.2 hlen, hds, hn]

theorem writeGroups_cons_cons (g h : UInt16) (gs : List UInt16) :
    writeGroups (g :: h :: gs) = hex g.toNat ++ ':' :: writeGroups (h :: gs) := by
  simp [writeGroups, List.intercalate, hex]

theorem writeGroups_singleton (g : UInt16) : writeGroups [g] = hex g.toNat := by
  simp [writeGroups, List.intercalate, hex]

theorem mem_writeGroups (gs : List UInt16) :
    ∀ c ∈ writeGroups gs, Hex.isLowerDigit c = true ∨ c = ':' := by
  induction gs with
  | nil => simp [writeGroups, List.intercalate]
  | cons g gs ih =>
    intro c hc
    cases gs with
    | nil =>
      rw [writeGroups_singleton] at hc
      exact Or.inl (isLowerDigit_of_mem_hex _ c hc)
    | cons h gs =>
      rw [writeGroups_cons_cons, List.mem_append, List.mem_cons] at hc
      obtain hc | hc | hc := hc
      · exact Or.inl (isLowerDigit_of_mem_hex _ c hc)
      · exact Or.inr hc
      · exact ih c hc

theorem splitOn_writeGroups {gs : List UInt16} (h : gs ≠ []) :
    (writeGroups gs).splitOn ':' = gs.map fun g => hex g.toNat := by
  apply List.splitOn_intercalate
  · intro l hl
    obtain ⟨g, _, rfl⟩ := List.mem_map.1 hl
    exact not_mem_hex (by decide) _
  · simpa using h

theorem sidePieces_writeGroups (gs : List UInt16) :
    sidePieces (writeGroups gs) = gs.map fun g => hex g.toNat := by
  cases gs with
  | nil => rfl
  | cons g gs =>
    have hne : writeGroups (g :: gs) ≠ [] := by
      intro h
      have hs := splitOn_writeGroups (List.cons_ne_nil g gs)
      rw [h] at hs
      simp at hs
      exact hex_ne_nil g.toNat hs.1
    rw [sidePieces, if_neg (by simpa using hne), splitOn_writeGroups (List.cons_ne_nil g gs)]

theorem mapM_group? (gs : List UInt16) : (gs.map fun g => hex g.toNat).mapM group? = some gs := by
  induction gs with
  | nil => rfl
  | cons g gs ih => simp [group?_hex, ih]

theorem groups?_hex (gs : List UInt16) : groups? (gs.map fun g => hex g.toNat) = some gs := by
  induction gs with
  | nil => rfl
  | cons g gs ih =>
    cases gs with
    | nil => simp [groups?, readV4?_of_not_mem (not_mem_hex (c := '.') (by decide) _), group?_hex]
    | cons h gs =>
      rw [List.map_cons] at ih ⊢
      simp [groups?, group?_hex, ih]

theorem cutGap?_append {d : Text} (hd : ':' ∉ d) (t : Text) :
    cutGap? (d ++ t) = (cutGap? t).map fun p => (d ++ p.1, p.2) := by
  induction d with
  | nil => simp
  | cons c d ih =>
    have hc : c ≠ ':' := by
      intro h
      exact hd (by simp [h])
    have ht : ':' ∉ d := fun h => hd (List.mem_cons_of_mem c h)
    simp [cutGap?, hc, ih ht]
    rfl

theorem cutGap?_colon {t : Text} (h : t.head? ≠ some ':') :
    cutGap? (':' :: t) = (cutGap? t).map fun p => (':' :: p.1, p.2) := by
  cases t with
  | nil => rfl
  | cons c t =>
    have hc : c ≠ ':' := by simpa using h
    simp [cutGap?, hc]

theorem head?_writeGroups (g : UInt16) (gs : List UInt16) (t : Text) :
    (writeGroups (g :: gs) ++ t).head? ≠ some ':' := by
  have hne := hex_ne_nil g.toNat
  have hno := not_mem_hex (c := ':') (by decide) g.toNat
  cases hx : hex g.toNat with
  | nil => exact absurd hx hne
  | cons c r =>
    have hc : c ≠ ':' := by
      intro h
      exact hno (by simp [hx, h])
    cases gs with
    | nil => simp [writeGroups_singleton, hx, hc]
    | cons h gs => simp [writeGroups_cons_cons, hx, hc]

theorem cutGap?_writeGroups_gap (gs : List UInt16) (t : Text) :
    cutGap? (writeGroups gs ++ ':' :: ':' :: t) = some (writeGroups gs, t) := by
  induction gs with
  | nil => rfl
  | cons g gs ih =>
    have hno := not_mem_hex (c := ':') (by decide) g.toNat
    cases gs with
    | nil => simp [writeGroups_singleton, cutGap?_append hno, cutGap?]
    | cons h gs =>
      rw [writeGroups_cons_cons, List.append_assoc, cutGap?_append hno, List.cons_append,
        cutGap?_colon (head?_writeGroups h gs _), ih]
      rfl

theorem cutGap?_writeGroups (gs : List UInt16) : cutGap? (writeGroups gs) = none := by
  induction gs with
  | nil => rfl
  | cons g gs ih =>
    have hno := not_mem_hex (c := ':') (by decide) g.toNat
    cases gs with
    | nil =>
      rw [writeGroups_singleton, ← List.append_nil (hex g.toNat), cutGap?_append hno]
      rfl
    | cons h gs =>
      have hh := head?_writeGroups h gs []
      rw [List.append_nil] at hh
      rw [writeGroups_cons_cons, cutGap?_append hno, cutGap?_colon hh, ih]
      rfl

theorem eq_replicate_append {n : Nat} {gs : List UInt16} (h : n ≤ zeros gs) :
    gs = List.replicate n 0 ++ gs.drop n := by
  induction n generalizing gs with
  | zero => rfl
  | succ n ih =>
    cases gs with
    | nil => simp [zeros] at h
    | cons g gs =>
      by_cases hg : g = 0
      · subst hg
        have hz : n ≤ zeros gs := by simpa [zeros] using h
        simpa [List.replicate_succ] using ih hz
      · simp [zeros, hg] at h

def betterRun (gs : List UInt16) (best : Nat × Nat) (i : Nat) : Nat × Nat :=
  if best.2 < zeros (gs.drop i) then (i, zeros (gs.drop i)) else best

theorem foldl_betterRun (gs : List UInt16) (is : List Nat) (best : Nat × Nat)
    (h : best.2 ≤ zeros (gs.drop best.1)) :
    (is.foldl (betterRun gs) best).2 ≤ zeros (gs.drop (is.foldl (betterRun gs) best).1) := by
  induction is generalizing best with
  | nil => exact h
  | cons i is ih =>
    apply ih
    by_cases hb : best.2 < zeros (gs.drop i)
    · simp [betterRun, hb]
    · simpa [betterRun, hb] using h

theorem longestZeros_le (gs : List UInt16) :
    (longestZeros gs).2 ≤ zeros (gs.drop (longestZeros gs).1) :=
  foldl_betterRun gs (List.range gs.length) (0, 0) (Nat.zero_le _)

/-- What stands before the longest run of zeros, the run, and what stands after it. -/
theorem eq_take_append (gs : List UInt16) :
    gs = gs.take (longestZeros gs).1 ++ (List.replicate (longestZeros gs).2 0 ++
      gs.drop ((longestZeros gs).1 + (longestZeros gs).2)) := by
  have h := eq_replicate_append (longestZeros_le gs)
  rw [List.drop_drop] at h
  rw [← h, List.take_append_drop]

theorem fillGap?_take_drop {gs : List UInt16} (hlen : gs.length = 8)
    (hz : 1 < (longestZeros gs).2) :
    fillGap? (gs.take (longestZeros gs).1)
      (gs.drop ((longestZeros gs).1 + (longestZeros gs).2)) = ofGroups? gs := by
  have h := eq_take_append gs
  have hl := congrArg List.length h
  simp only [List.length_append, List.length_replicate, hlen] at hl
  generalize gs.take (longestZeros gs).1 = front at h hl ⊢
  generalize gs.drop ((longestZeros gs).1 + (longestZeros gs).2) = back at h hl ⊢
  have hn : 8 - (front.length + back.length) = (longestZeros gs).2 := by omega
  rw [fillGap?, if_pos (by omega), hn, List.append_assoc, ← h]

theorem readV6?_writeV6 {gs : List UInt16} (hlen : gs.length = 8) :
    readV6? (writeV6 gs) = ofGroups? gs := by
  have hne : gs ≠ [] := by
    intro h
    simp [h] at hlen
  by_cases hz : 1 < (longestZeros gs).2
  · rw [writeV6, if_pos hz, readV6?, List.append_assoc, List.cons_append, List.singleton_append,
      cutGap?_writeGroups_gap]
    simp only [sidePieces_writeGroups, mapM_group?, groups?_hex]
    exact fillGap?_take_drop hlen hz
  · rw [writeV6, if_neg hz, readV6?, cutGap?_writeGroups, splitOn_writeGroups hne]
    simp [groups?_hex]

theorem mem_writeV6 (gs : List UInt16) :
    ∀ c ∈ writeV6 gs, Hex.isLowerDigit c = true ∨ c = ':' := by
  intro c hc
  rw [writeV6] at hc
  split at hc
  · simp only [List.mem_append, List.mem_cons, List.not_mem_nil, or_false, or_self] at hc
    obtain (hc | hc) | hc := hc
    · exact mem_writeGroups _ c hc
    · exact Or.inr hc
    · exact mem_writeGroups _ c hc
  · exact mem_writeGroups _ c hc

theorem parse?_writeV6 {gs : List UInt16} (hlen : gs.length = 8) :
    parse? (writeV6 gs) = ofGroups? gs := by
  have hdot : '.' ∉ writeV6 gs := by
    intro h
    have hc := mem_writeV6 gs '.' h
    revert hc
    decide
  rw [parse?, readV4?_of_not_mem hdot, readV6?_writeV6 hlen]

theorem mem_writeV4 (a b c d : UInt8) :
    ∀ x ∈ writeV4 a b c d, Hex.isLowerDigit x = true ∨ x = '.' := by
  intro x hx
  have digit (n : UInt8) (h : x ∈ Decimal.write n.toNat) : Hex.isLowerDigit x = true := by
    simp [Hex.isLowerDigit, Decimal.isDigit_of_mem_write h]
  simp only [writeV4, List.intercalate, List.map_cons, List.map_nil, List.intersperse_cons_cons,
    List.intersperse_singleton, List.flatten_cons, List.flatten_nil, List.append_nil,
    List.mem_append, List.mem_singleton] at hx
  obtain h | h | h | h | h | h | h := hx
  · exact Or.inl (digit a h)
  · exact Or.inr h
  · exact Or.inl (digit b h)
  · exact Or.inr h
  · exact Or.inl (digit c h)
  · exact Or.inr h
  · exact Or.inl (digit d h)

theorem halves (g : UInt16) :
    (g / 256).toUInt8.toUInt16 * 256 + (g % 256).toUInt8.toUInt16 = g := by
  apply UInt16.toNat_inj.1
  have hg := g.toNat_lt
  simp
  omega

theorem parse?_mapped (a b c d : UInt8) :
    parse? ("::ffff:".toList ++ writeV4 a b c d) =
      ofGroups? ([0, 0, 0, 0, 0, 0xFFFF] ++ pair a b c d) := by
  have hdots : "::ffff:".toList ++ writeV4 a b c d = ['.'].intercalate
      ["::ffff:".toList ++ Decimal.write a.toNat, Decimal.write b.toNat, Decimal.write c.toNat,
        Decimal.write d.toNat] := by
    simp [writeV4, List.intercalate]
  have hv4 : readV4? ("::ffff:".toList ++ writeV4 a b c d) = none := by
    rw [hdots, readV4?, List.splitOn_intercalate]
    · simp [octet?]
    · intro l hl
      have hno (n : UInt8) : '.' ∉ Decimal.write n.toNat := not_mem_write (by decide) _
      simp only [List.mem_cons, List.not_mem_nil, or_false] at hl
      obtain rfl | rfl | rfl | rfl := hl
      · simp [hno]
      · exact hno b
      · exact hno c
      · exact hno d
    · simp
  have hcolon : ':' ∉ writeV4 a b c d := by
    intro h
    have hc := mem_writeV4 a b c d ':' h
    revert hc
    decide
  -- The text behind the gap is one group and then an address of four octets.
  have hside : sidePieces ("ffff:".toList ++ writeV4 a b c d) =
      ["ffff".toList, writeV4 a b c d] := by
    have hs : ("ffff".toList ++ ':' :: writeV4 a b c d).splitOn ':' =
        ["ffff".toList, writeV4 a b c d] := by
      rw [List.splitOn_append_cons_self_of_not_mem (by decide), List.splitOn_eq_singleton hcolon]
    simpa [sidePieces] using hs
  have hff : group? "ffff".toList = some 0xFFFF := by decide +kernel
  have hgap : cutGap? ("::ffff:".toList ++ writeV4 a b c d) =
      some ([], "ffff:".toList ++ writeV4 a b c d) := rfl
  rw [parse?, hv4, readV6?, hgap]
  simp only [hside, groups?, hff, readV4?_writeV4]
  rfl

/-- The text of an address is that of no other. -/
theorem parse?_render (ip : IpAddr) : parse? ip.render = some ip := by
  cases ip with
  | v4 a b c d => simp [render, parse?, readV4?_writeV4]
  | v6 a b c d e f g h =>
    by_cases hm : [a, b, c, d, e, f] = [0, 0, 0, 0, 0, 0xFFFF]
    · rw [render, if_pos hm, parse?_mapped, pair, halves, halves, ← hm]
      rfl
    · rw [render, if_neg hm, parse?_writeV6 rfl]
      rfl

theorem mem_render (ip : IpAddr) :
    ∀ x ∈ ip.render, Hex.isLowerDigit x = true ∨ x = '.' ∨ x = ':' := by
  intro x hx
  cases ip with
  | v4 a b c d =>
    obtain h | h := mem_writeV4 a b c d x hx
    · exact Or.inl h
    · exact Or.inr (Or.inl h)
  | v6 a b c d e f g h =>
    rw [render] at hx
    split at hx
    · obtain hx | hx := List.mem_append.1 hx
      · have front : "::ffff:".toList.all (fun y => Hex.isLowerDigit y || (y == '.' || y == ':')) =
            true := by decide
        simpa only [Bool.or_eq_true, beq_iff_eq] using List.all_eq_true.1 front x hx
      · obtain h | h := mem_writeV4 _ _ _ _ x hx
        · exact Or.inl h
        · exact Or.inr (Or.inl h)
    · obtain h | h := mem_writeV6 _ x hx
      · exact Or.inl h
      · exact Or.inr (Or.inr h)

theorem isBlank_of_mem_render {ip : IpAddr} {c : Char} (h : c ∈ ip.render) :
    Text.isBlank c = false := by
  obtain h | rfl | rfl := mem_render ip c h
  · exact Text.isBlank_of_isLowerDigit h
  · rfl
  · rfl

theorem not_mem_render {c : Char} (hd : Hex.isLowerDigit c = false) (h1 : c ≠ '.') (h2 : c ≠ ':')
    (ip : IpAddr) : c ∉ ip.render := by
  intro h
  obtain h | h | h := mem_render ip c h
  · simp [h] at hd
  · exact h1 h
  · exact h2 h

end SipTestbed.IpAddr
