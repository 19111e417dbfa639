import SipTestbed.Bindings

/-! The live bindings after each operation. -/
namespace SipTestbed.Bindings

theorem live?_erase (now : Nat) (u v : Text) (bs : Bindings) :
    (bs.erase u).live? now v = if v = u then none else bs.live? now v := by
  simp only [live?, prune, find?, erase, List.find?_filter]
  by_cases h : v = u
  · subst h
    rw [if_pos rfl, Option.map_eq_none_iff, List.find?_eq_none]
    intro e _
    by_cases he : e.1 = v <;> simp [he]
  · rw [if_neg h]
    congr 2
    funext e
    by_cases he : e.1 = v <;> simp [he, h]

theorem live?_insert (now : Nat) (u v : Text) (b : Binding) (bs : Bindings) :
    (bs.insert u b).live? now v =
      if v = u then (if now < b.deadline then some b else none) else bs.live? now v := by
  by_cases h : v = u
  · subst h
    have he := live?_erase now v v bs
    simp only [live?, prune, find?, insert] at he ⊢
    by_cases hb : now < b.deadline
    · simp [hb]
    · simpa [hb] using he
  · have he := live?_erase now u v bs
    simp only [live?, prune, find?, insert, if_neg h] at he ⊢
    by_cases hb : now < b.deadline
    · simpa [hb, Ne.symm h] using he
    · simpa [hb] using he

theorem live?_prune {earlier now : Nat} (h : earlier ≤ now) (u : Text) (bs : Bindings) :
    (bs.prune earlier).live? now u = bs.live? now u := by
  simp only [live?, prune, find?, List.find?_filter]
  congr 2
  funext e
  by_cases he : now < e.2.deadline
  · simp [he, Nat.lt_of_le_of_lt h he]
  · simp [he]

theorem register_eq_ok {now : Nat} {domain logical contact : Uri} {expiry : Nat} {bs : Bindings}
    (hd : bs.serves domain = true) (hl : bs.serves logical = true)
    (ht : now + expiry < clockLimit) :
    bs.register now domain logical contact expiry =
      (.ok ⟨expiry / second, contact⟩,
        (bs.prune now).insert logical.userKey ⟨contact, now + expiry⟩) := by
  simp [register, hd, hl, Nat.not_le.2 ht, Binding.registration]

theorem register_snd_of_error {now : Nat} {domain logical contact : Uri} {expiry : Nat}
    {bs : Bindings} {e : BindingError}
    (h : (bs.register now domain logical contact expiry).1 = .error e) :
    (bs.register now domain logical contact expiry).2 = bs := by
  rw [register] at h ⊢
  split
  · rfl
  · rename_i hserved
    rw [if_neg hserved] at h
    split
    · rfl
    · rename_i htime
      rw [if_neg htime] at h
      cases h

end SipTestbed.Bindings
