import SipTestbed.Headers.Lemmas
import SipTestbed.Proofs.IpText
import SipTestbed.Registrar.Reply

/-! Where a reply goes and the status code that travels with it. -/
namespace SipTestbed

/-- The status code of a datagram: the number that is the second word of its first line. -/
def Attempt.status? (a : Attempt) : Option UInt16 :=
  (Utf8.decode? ((a.data.dropWhile (· != 32)).tail.takeWhile (· != 32))).bind Decimal.readU16?

theorem Utf8.encode_append (s t : Text) : encode (s ++ t) = encode s ++ encode t :=
  List.flatMap_append

theorem Utf8.eq_of_mem_encodeChar {c : Char} {b : UInt8} (hb : b.toNat < 128)
    (h : b ∈ String.utf8EncodeChar c) : c = Char.ofNat b.toNat := by
  have hlt := toNat_lt c
  have hhigh (n : Nat) (hlo : 128 ≤ n) (hn : n < 256) : b ≠ UInt8.ofNat n := by
    intro he
    have hbn := congrArg UInt8.toNat he
    rw [toNat_ofNat hn] at hbn
    omega
  have hc : c.toNat = b.toNat := by
    rw [String.utf8EncodeChar] at h
    change b ∈ (if c.toNat ≤ 127 then [UInt8.ofNat c.toNat] else _) at h
    split at h
    · rename_i hone
      rw [List.mem_singleton.1 h, toNat_ofNat (by omega)]
    · exfalso
      -- Every octet of a longer group has its highest bit set.
      split at h
      · simp (disch := omega) only [List.mem_cons, List.not_mem_nil, hhigh, or_self] at h
      · split at h
        · simp (disch := omega) only [List.mem_cons, List.not_mem_nil, hhigh, or_self] at h
        · simp (disch := omega) only [List.mem_cons, List.not_mem_nil, hhigh, or_self] at h
  rw [← hc, Char.ofNat_toNat]

theorem Utf8.mem_of_mem_encode {t : Text} {b : UInt8} (hb : b.toNat < 128) (h : b ∈ encode t) :
    Char.ofNat b.toNat ∈ t := by
  obtain ⟨c, hc, hm⟩ := List.mem_flatMap.1 h
  exact eq_of_mem_encodeChar hb hm ▸ hc

theorem Response.status?_encode (r : Response) (dest : Endpoint) (up : Bool) :
    Attempt.status? ⟨dest, r.encode, up⟩ = some r.code := by
  have hsplit : ∃ rest, r.encode = Utf8.encode sipVersion ++
      32 :: (Utf8.encode (Decimal.write r.code.toNat) ++ 32 :: rest) := by
    refine ⟨Utf8.encode (r.reason ++ crlf ++ r.headers.render r.body.length) ++ r.body, ?_⟩
    have hblank (t : Text) : Utf8.encode (' ' :: t) = 32 :: Utf8.encode t := rfl
    simp [Response.encode, Response.head, Utf8.encode_append, hblank]
  obtain ⟨rest, hrest⟩ := hsplit
  have hdigits : ∀ b ∈ Utf8.encode (Decimal.write r.code.toNat), (b != 32) = true := by
    intro b hb
    simp only [bne_iff_ne]
    intro he
    subst he
    exact IpAddr.not_mem_write (by decide) _ (Utf8.mem_of_mem_encode (by decide) hb)
  have hfront : ∀ b ∈ Utf8.encode sipVersion, (b != 32) = true :=
    List.all_eq_true.1 (by decide)
  have hdrop : r.encode.dropWhile (· != 32) =
      32 :: (Utf8.encode (Decimal.write r.code.toNat) ++ 32 :: rest) := by
    rw [hrest, List.dropWhile_append_of_pos hfront]
    rfl
  have hword : (r.encode.dropWhile (· != 32)).tail.takeWhile (· != 32) =
      Utf8.encode (Decimal.write r.code.toNat) := by
    rw [hdrop, List.tail_cons, List.takeWhile_append_of_pos hdigits]
    simp
  rw [Attempt.status?, hword, Utf8.decode?_encode]
  exact Decimal.readU16?_write r.code

theorem mem_sent_deliver {w : World} {r : Response} {a : Attempt} (h : a ∈ (r.deliver w).sent) :
    (r.topVia >>= Via.destination w) = .ok a.dest ∧ a = ⟨a.dest, r.encode, w.networkUp⟩ := by
  rw [Response.deliver] at h
  cases hd : r.topVia >>= Via.destination w with
  | error f => simp [hd] at h
  | ok dest =>
    simp only [hd, List.mem_singleton] at h
    subst h
    exact ⟨rfl, rfl⟩

theorem status?_of_mem_deliver {w : World} {r : Response} {a : Attempt}
    (h : a ∈ (r.deliver w).sent) : a.status? = some r.code := by
  rw [(mem_sent_deliver h).2]
  exact r.status?_encode _ _

theorem topVia_congr {r r' : Response}
    (h : r.headers.get? "via".toList = r'.headers.get? "via".toList) : r.topVia = r'.topVia := by
  rw [Response.topVia, Response.topVia, h]

/-- A delivery whose end has a status did not get as far as sending, and no response with the same
top Via gets further. -/
theorem sent_deliver_of_status {w : World} {r r' : Response} {f : Fault} {code : UInt16}
    (h : (r.deliver w).result = .error f) (hf : f.status = some code)
    (hvia : r.headers.get? "via".toList = r'.headers.get? "via".toList) :
    (r'.deliver w).sent = [] := by
  rw [Response.deliver] at h ⊢
  rw [← topVia_congr hvia]
  cases hd : r.topVia >>= Via.destination w with
  | error g => rfl
  | ok dest =>
    simp only [hd] at h
    split at h
    · cases h
    · cases h
      cases hf

def copied : List Text := ["via".toList, "from".toList, "call-id".toList, "cseq".toList]

theorem entries_echoHeaders (tag : Token 16) (code : UInt16) (hs : Headers) :
    (echoHeaders tag code hs).entries =
      (hs.getAll "via".toList).map (fun v => ("via".toList, v)) ++
        (hs.getAll "from".toList).map (fun v => ("from".toList, v)) ++
        ((hs.get? "to".toList).toList.map (withTag tag code)).map (fun v => ("to".toList, v)) ++
        (hs.getAll "call-id".toList).map (fun v => ("call-id".toList, v)) ++
        (hs.getAll "cseq".toList).map (fun v => ("cseq".toList, v)) := by
  have hnormal : Headers.normalise "to".toList = "to".toList ∧
      ∀ n ∈ copied, Headers.normalise n = n := by decide
  obtain ⟨hto, hcopied⟩ := hnormal
  have hvia := hcopied "via".toList (by decide)
  have hfrom := hcopied "from".toList (by decide)
  have hcall := hcopied "call-id".toList (by decide)
  have hcseq := hcopied "cseq".toList (by decide)
  rw [echoHeaders, Headers.entries_copyFrom, Headers.entries_copyFrom, hcall, hcseq]
  cases hs.get? "to".toList with
  | none =>
    simp only [Headers.entries_copyFrom, hvia, hfrom, Headers.empty]
    simp
  | some v =>
    simp only [Headers.add, Headers.entries_copyFrom, hvia, hfrom, hto, Headers.empty]
    simp

theorem values_of_name (n m : Text) (vs : List Text) :
    ((vs.map fun v => (n, v)).filter fun e => e.1 == m).map Prod.snd =
      if n = m then vs else [] := by
  by_cases h : n = m <;> simp [h, List.filter_map, Function.comp_def]

theorem getAll_echoHeaders (tag : Token 16) (code : UInt16) (hs : Headers) {n : Text}
    (hn : n ∈ copied) : (echoHeaders tag code hs).getAll n = hs.getAll n := by
  rw [Headers.getAll, entries_echoHeaders]
  simp only [List.filter_append, List.map_append, values_of_name]
  simp only [copied, List.mem_cons, List.not_mem_nil, or_false] at hn
  obtain rfl | rfl | rfl | rfl := hn <;> simp +decide

theorem getAll_to_echoHeaders (tag : Token 16) (code : UInt16) (hs : Headers) :
    (echoHeaders tag code hs).getAll "to".toList =
      (hs.get? "to".toList).toList.map (withTag tag code) := by
  rw [Headers.getAll, entries_echoHeaders]
  simp only [List.filter_append, List.map_append, values_of_name]
  simp +decide

theorem get?_via_reply (tag : Token 16) (code : UInt16) (r : Request) :
    (r.reply tag code).headers.get? "via".toList = r.headers.get? "via".toList := by
  rw [Headers.get?_eq_head?, Headers.get?_eq_head?]
  exact congrArg List.head? (getAll_echoHeaders tag code r.headers (by decide))

theorem get?_via_addHeader {n v : Text} (hn : Headers.normalise n ≠ Headers.normalise "via".toList)
    (r : Response) :
    (r.addHeader n v).headers.get? "via".toList = r.headers.get? "via".toList := by
  rw [Headers.get?_eq_head?, Headers.get?_eq_head?, Response.addHeader, Headers.getAll_add,
    if_neg hn, List.append_nil]

end SipTestbed
