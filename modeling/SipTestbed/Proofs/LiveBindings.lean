import Mathlib.Data.List.Nodup
import SipTestbed.Bindings.Lemmas

/-! The bindings that are live at a moment, with their contacts and deadlines, and what each
operation makes of them. -/
namespace SipTestbed.Bindings

/-- Users with their bindings, each of them live. -/
def live (now : Nat) (bs : Bindings) : List (Text × Binding) := (bs.prune now).entries

theorem prune_prune (now : Nat) (bs : Bindings) : (bs.prune now).prune now = bs.prune now := by
  simp [prune, List.filter_filter]

theorem live_prune (now : Nat) (bs : Bindings) : (bs.prune now).live now = bs.live now := by
  rw [live, prune_prune, live]

theorem mem_of_find? {user : Text} {bs : Bindings} {b : Binding} (h : bs.find? user = some b) :
    (user, b) ∈ bs.entries := by
  obtain ⟨e, he, rfl⟩ := Option.map_eq_some_iff.1 h
  have hu : e.1 = user := by simpa using List.find?_some he
  exact hu ▸ List.mem_of_find?_eq_some he

theorem live_erase (now : Nat) (user : Text) (bs : Bindings) :
    (bs.erase user).live now = (bs.live now).filter fun e => e.1 != user := by
  simp only [live, prune, erase, List.filter_filter]
  apply List.filter_congr
  intro e _
  exact Bool.and_comm _ _

theorem live?_eq_none_iff {now : Nat} {user : Text} {bs : Bindings} :
    bs.live? now user = none ↔ ∀ e ∈ bs.live now, e.1 ≠ user := by
  simp [live?, find?, live]

theorem filter_live_eq_self_iff {now : Nat} {user : Text} {bs : Bindings} :
    (bs.live now).filter (fun e => e.1 != user) = bs.live now ↔ bs.live? now user = none := by
  rw [live?_eq_none_iff, List.filter_eq_self]
  simp

theorem live_lookup (now : Nat) (user : Uri) (bs : Bindings) :
    (bs.lookup now user).2.live now = bs.live now := by
  rw [lookup]
  split
  · rfl
  · split
    · exact live_prune now bs
    · exact live_prune now bs

theorem live_unregister (now : Nat) (logical : Uri) (bs : Bindings) :
    (bs.unregister now logical).2.live now =
      (bs.live now).filter fun e => e.1 != logical.userKey := by
  rw [unregister]
  cases hf : (bs.prune now).find? logical.userKey with
  | some b => exact (live_erase now _ _).trans (by rw [live_prune])
  | none => exact (live_prune now bs).trans (filter_live_eq_self_iff.2 hf).symm

theorem unregister_eq_error_iff {now : Nat} {logical : Uri} {bs : Bindings} :
    (∃ e, (bs.unregister now logical).1 = .error e) ↔ bs.live? now logical.userKey = none := by
  rw [unregister, live?]
  cases (bs.prune now).find? logical.userKey <;> simp

theorem unregister_of_none {now : Nat} {logical : Uri} {bs : Bindings}
    (h : bs.live? now logical.userKey = none) :
    (bs.unregister now logical).1 = .error (.noSuchUser logical.userKey) := by
  have hfind : (bs.prune now).find? logical.userKey = none := h
  rw [unregister, hfind]

theorem lookup_of_live? {now : Nat} {user : Uri} {bs : Bindings} {b : Binding}
    (hu : bs.serves user = true) (h : bs.live? now user.userKey = some b) :
    (bs.lookup now user).1 = .ok (b.registration now) := by
  have hfind : (bs.prune now).find? user.userKey = some b := h
  rw [lookup, hu, hfind]
  rfl

theorem find?_erase (user : Text) (bs : Bindings) : (bs.erase user).find? user = none := by
  simp [find?, erase]

theorem lookup_of_none {now : Nat} {user : Uri} {bs : Bindings}
    (h : bs.live? now user.userKey = none) :
    ∃ e : BindingError, e.status = 404 ∧ (bs.lookup now user).1 = .error e := by
  have hfind : (bs.prune now).find? user.userKey = none := h
  rw [lookup, hfind]
  split
  · exact ⟨_, rfl, rfl⟩
  · exact ⟨_, rfl, rfl⟩

theorem live_unregister_of_error {now : Nat} {logical : Uri} {bs : Bindings} {e : BindingError}
    (h : (bs.unregister now logical).1 = .error e) :
    (bs.unregister now logical).2.live now = bs.live now := by
  rw [live_unregister]
  exact filter_live_eq_self_iff.2 (unregister_eq_error_iff.1 ⟨e, h⟩)

theorem live_register_of_error {now : Nat} {domain logical contact : Uri} {expiry : Nat}
    {bs : Bindings} {e : BindingError}
    (h : (bs.register now domain logical contact expiry).1 = .error e) :
    (bs.register now domain logical contact expiry).2.live now = bs.live now := by
  rw [register_snd_of_error h]

/-- No user is bound twice, over or not. -/
def Distinct (bs : Bindings) : Prop := (bs.entries.map Prod.fst).Nodup

theorem distinct_empty (domain : Text) : (empty domain).Distinct := List.nodup_nil

theorem Distinct.filter {bs : Bindings} (h : bs.Distinct) (p : Text × Binding → Bool) :
    ((bs.entries.filter p).map Prod.fst).Nodup :=
  h.sublist (List.filter_sublist.map Prod.fst)

theorem Distinct.prune {bs : Bindings} (h : bs.Distinct) (now : Nat) : (bs.prune now).Distinct :=
  h.filter _

theorem Distinct.erase {bs : Bindings} (h : bs.Distinct) (user : Text) : (bs.erase user).Distinct :=
  h.filter _

theorem Distinct.insert {bs : Bindings} (h : bs.Distinct) (user : Text) (b : Binding) :
    (bs.insert user b).Distinct := by
  have hnot : user ∉ (bs.erase user).entries.map Prod.fst := by simp [Bindings.erase]
  exact List.nodup_cons.2 ⟨hnot, h.erase user⟩

theorem Distinct.live?_eq_some_iff {bs : Bindings} (h : bs.Distinct) {now : Nat} {user : Text}
    {b : Binding} : bs.live? now user = some b ↔ (user, b) ∈ bs.entries ∧ now < b.deadline := by
  have hmem : (user, b) ∈ (bs.prune now).entries ↔ (user, b) ∈ bs.entries ∧ now < b.deadline := by
    simp [Bindings.prune]
  rw [← hmem, live?]
  constructor
  · exact mem_of_find?
  · intro hm
    rw [find?, Option.map_eq_some_iff]
    cases hf : (bs.prune now).entries.find? fun e => e.1 == user with
    | none =>
      have hne := List.find?_eq_none.1 hf _ hm
      simp at hne
    | some e =>
      have hu : e.1 = user := by simpa using List.find?_some hf
      have he : e = (user, b) :=
        List.inj_on_of_nodup_map (h.prune now) (List.mem_of_find?_eq_some hf) hm hu
      exact ⟨e, rfl, by rw [he]⟩

theorem deadline_of_live? {now : Nat} {user : Text} {bs : Bindings} {b : Binding}
    (h : bs.live? now user = some b) : now < b.deadline := by
  have hm := (List.mem_filter.1 (mem_of_find? h)).2
  simpa using hm

end SipTestbed.Bindings
