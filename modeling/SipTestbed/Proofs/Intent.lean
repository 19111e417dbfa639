import SipTestbed.Proofs.Source
import SipTestbed.Registrar.Basic

/-! For whom registrations are, which of them ask for the removal of a binding, what those that bind
have to say, how they fail. -/
namespace SipTestbed

/-- Zero seconds, by the Expires header or else by the contact. -/
def Request.AsksRemoval (default : Nat) (r : Request) : Prop :=
  Intent.expiresText? r = some ['0'] ∨
    ∃ text a, r.headers.get? "contact".toList = some text ∧ Address.parse text = .ok a ∧
      Intent.seconds default (Intent.expiresText? r) a = .ok 0

/-- The user that a registration is for. -/
def Request.Names (user : Uri) (r : Request) : Prop :=
  ∃ text a, r.headers.get? "to".toList = some text ∧ Address.parse text = .ok a ∧ a.uri = user

theorem Request.names_unique {r : Request} {user user' : Uri} (h : r.Names user)
    (h' : r.Names user') : user = user' := by
  obtain ⟨text, a, hg, ha, hu⟩ := h
  obtain ⟨text', a', hg', ha', hu'⟩ := h'
  rw [hg, Option.some.injEq] at hg'
  rw [← hg', ha, Except.ok.injEq] at ha'
  rw [← hu, ← hu', ha']

theorem Request.names_stamp {src : Endpoint} {r r' : Request} (h : r.stamp src = .ok r')
    (user : Uri) : r'.Names user ↔ r.Names user := by
  rw [Names, Names, get?_stamp h (by decide)]

theorem Request.asksRemoval_stamp {src : Endpoint} {r r' : Request} (h : r.stamp src = .ok r')
    (default : Nat) : r'.AsksRemoval default ↔ r.AsksRemoval default := by
  have he : Intent.expiresText? r' = Intent.expiresText? r := by
    rw [Intent.expiresText?, Intent.expiresText?, get?_stamp h (by decide)]
  rw [AsksRemoval, AsksRemoval, he, get?_stamp h (by decide)]

namespace Intent

theorem ofContact_eq (default : Nat) (port : UInt16) (r : Request) (text : Text) :
    ofContact default port r text =
      match Address.parse text with
      | .error e => .error (.malformed e)
      | .ok a =>
        match seconds default (expiresText? r) a with
        | .error f => .error f
        | .ok secs =>
          if secs = 0 then .ok .remove
          else match Uri.parse r.uri with
            | .error e => .error (.malformed e)
            | .ok domain => .ok (.bind domain (fillPort port a.uri) secs) := by
  rw [ofContact]
  cases Address.parse text with
  | error e => rfl
  | ok a =>
    -- From here on each `change` shows the next step of the block.
    change (seconds default (expiresText? r) a >>= _) = _
    simp only
    cases seconds default (expiresText? r) a with
    | error f => rfl
    | ok secs =>
      change (if secs = 0 then _ else _) = _
      by_cases h0 : secs = 0
      · rw [if_pos h0]
        simp only [if_pos h0]
        rfl
      · rw [if_neg h0]
        simp only [if_neg h0]
        cases Uri.parse r.uri <;> rfl

theorem ofRequest_eq (default : Nat) (port : UInt16) (r : Request) :
    ofRequest default port r =
      match r.headers.get? "to".toList with
      | none => .error .missingTo
      | some text =>
        match Address.parse text with
        | .error e => .error (.malformed e)
        | .ok a =>
          if expiresText? r = some ['0'] then .ok (a.uri, .remove)
          else match r.headers.get? "contact".toList with
            | some text => (ofContact default port r text).map fun i => (a.uri, i)
            | none => .ok (a.uri, .query) := by
  rw [ofRequest]
  cases r.headers.get? "to".toList with
  | none => rfl
  | some text =>
    simp only
    cases Address.parse text with
    | error e => rfl
    | ok a =>
      change (if expiresText? r = some ['0'] then _ else _) = _
      by_cases h0 : expiresText? r = some ['0']
      · rw [if_pos h0]
        simp only [if_pos h0]
        rfl
      · rw [if_neg h0]
        simp only [if_neg h0]
        cases r.headers.get? "contact".toList with
        | none => rfl
        | some t =>
          simp only
          cases ofContact default port r t <;> rfl

theorem ofContact_eq_remove_iff {default : Nat} {port : UInt16} {r : Request} {text : Text} :
    ofContact default port r text = .ok .remove ↔
      ∃ a, Address.parse text = .ok a ∧ seconds default (expiresText? r) a = .ok 0 := by
  rw [ofContact_eq]
  cases Address.parse text with
  | error e => simp
  | ok a =>
    cases hs : seconds default (expiresText? r) a with
    | error f => simp [hs]
    | ok secs =>
      by_cases h0 : secs = 0
      · simp [hs, h0]
      · cases Uri.parse r.uri <;> simp [hs, h0]

theorem names_of_ofRequest {default : Nat} {port : UInt16} {r : Request} {user : Uri} {i : Intent}
    (h : ofRequest default port r = .ok (user, i)) : r.Names user := by
  rw [ofRequest_eq] at h
  cases hg : r.headers.get? "to".toList with
  | none => simp only [hg, reduceCtorEq] at h
  | some text =>
    cases ha : Address.parse text with
    | error e => simp only [hg, ha, reduceCtorEq] at h
    | ok a =>
      simp only [hg, ha] at h
      have hu : a.uri = user := by
        split at h
        · cases h
          rfl
        · split at h
          · obtain ⟨j, -, he⟩ := map_eq_ok_iff.1 h
            exact congrArg Prod.fst he
          · cases h
            rfl
      exact ⟨text, a, hg, ha, hu⟩

theorem ofRequest_of_names {default : Nat} {port : UInt16} {r : Request} {user : Uri}
    (h : r.Names user) :
    ofRequest default port r =
      if expiresText? r = some ['0'] then .ok (user, .remove)
      else match r.headers.get? "contact".toList with
        | some text => (ofContact default port r text).map fun i => (user, i)
        | none => .ok (user, .query) := by
  obtain ⟨text, a, hg, ha, hu⟩ := h
  rw [ofRequest_eq, hg]
  simp only [ha, hu]

theorem ofRequest_eq_remove_iff {default : Nat} {port : UInt16} {r : Request} {user : Uri} :
    ofRequest default port r = .ok (user, .remove) ↔ r.Names user ∧ r.AsksRemoval default := by
  have hasks (hn : r.Names user) :
      ofRequest default port r = .ok (user, .remove) ↔ r.AsksRemoval default := by
    rw [ofRequest_of_names hn, Request.AsksRemoval]
    by_cases h0 : expiresText? r = some ['0']
    · simp [h0]
    · rw [if_neg h0]
      cases hc : r.headers.get? "contact".toList with
      | none => simp [h0]
      | some text =>
        have hmap : ((ofContact default port r text).map fun i => (user, i)) = .ok (user, .remove) ↔
            ofContact default port r text = .ok .remove := by
          cases ofContact default port r text <;> simp [Except.map]
        simp [hmap, ofContact_eq_remove_iff, h0]
  constructor
  · intro h
    have hn : r.Names user := names_of_ofRequest h
    exact ⟨hn, (hasks hn).1 h⟩
  · intro h
    exact (hasks h.1).2 h.2

theorem status_of_seconds {default : Nat} {header : Option Text} {a : Address} {f : Fault}
    (h : seconds default header a = .error f) : f.status = some 400 := by
  cases header with
  | none => simp [seconds] at h
  | some v =>
    cases hn : Decimal.readU64? v with
    | none =>
      simp only [seconds, hn, Except.error.injEq] at h
      rw [← h]
      rfl
    | some n => simp [seconds, hn] at h

theorem status_of_ofContact {default : Nat} {port : UInt16} {r : Request} {text : Text} {f : Fault}
    (h : ofContact default port r text = .error f) : f.status = some 400 := by
  rw [ofContact_eq] at h
  cases ha : Address.parse text with
  | error e =>
    rw [ha] at h
    cases h
    rfl
  | ok a =>
    simp only [ha] at h
    cases hs : seconds default (expiresText? r) a with
    | error g =>
      rw [hs] at h
      cases h
      exact status_of_seconds hs
    | ok secs =>
      simp only [hs] at h
      split at h
      · cases h
      · cases hu : Uri.parse r.uri with
        | error e =>
          rw [hu] at h
          cases h
          rfl
        | ok domain =>
          rw [hu] at h
          cases h

theorem status_of_ofRequest {default : Nat} {port : UInt16} {r : Request} {f : Fault}
    (h : ofRequest default port r = .error f) : f.status = some 400 := by
  rw [ofRequest_eq] at h
  cases hg : r.headers.get? "to".toList with
  | none =>
    rw [hg] at h
    cases h
    rfl
  | some text =>
    simp only [hg] at h
    cases ha : Address.parse text with
    | error e =>
      rw [ha] at h
      cases h
      rfl
    | ok a =>
      simp only [ha] at h
      split at h
      · cases h
      · split at h
        · rename_i t _
          cases hc : ofContact default port r t with
          | error g =>
            simp only [hc, Except.map, Except.error.injEq] at h
            exact h ▸ status_of_ofContact hc
          | ok i => simp [hc, Except.map] at h
        · cases h

theorem seconds_le {default : Nat} {header : Option Text} {a : Address} {secs : Nat}
    (h : seconds default header a = .ok secs) : secs ≤ maxExpiry := by
  cases header with
  | none =>
    simp only [seconds, Except.ok.injEq] at h
    omega
  | some v =>
    cases hn : Decimal.readU64? v with
    | none => simp [seconds, hn] at h
    | some n =>
      simp only [seconds, hn, Except.ok.injEq] at h
      omega

theorem bind_of_ofContact {default : Nat} {port : UInt16} {r : Request} {text : Text}
    {domain contact : Uri} {secs : Nat}
    (h : ofContact default port r text = .ok (.bind domain contact secs)) :
    secs ≤ maxExpiry ∧ ∃ a, Address.parse text = .ok a ∧ contact = fillPort port a.uri := by
  rw [ofContact_eq] at h
  cases ha : Address.parse text with
  | error e => simp [ha] at h
  | ok a =>
    simp only [ha] at h
    cases hs : seconds default (expiresText? r) a with
    | error f => simp [hs] at h
    | ok n =>
      simp only [hs] at h
      split at h
      · cases h
      · split at h
        · cases h
        · cases h
          exact ⟨seconds_le hs, a, rfl, rfl⟩

theorem bind_of_ofRequest {default : Nat} {port : UInt16} {r : Request} {user domain contact : Uri}
    {secs : Nat} (h : ofRequest default port r = .ok (user, .bind domain contact secs)) :
    secs ≤ maxExpiry ∧ ∃ text a, r.headers.get? "contact".toList = some text ∧
      Address.parse text = .ok a ∧ contact = fillPort port a.uri := by
  rw [ofRequest_of_names (names_of_ofRequest h)] at h
  split at h
  · cases h
  · cases hg : r.headers.get? "contact".toList with
    | none =>
      rw [hg] at h
      cases h
    | some text =>
      rw [hg] at h
      obtain ⟨i, hc, he⟩ := map_eq_ok_iff.1 h
      cases he
      obtain ⟨hsecs, a, ha, hcontact⟩ := bind_of_ofContact hc
      exact ⟨hsecs, text, a, rfl, ha, hcontact⟩

end Intent
end SipTestbed
