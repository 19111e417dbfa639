import Mathlib
import SipTestbed.Proofs.LiveBindings
import SipTestbed.Session

/-! A ledger of bindings in which nothing is ever over: each binding is struck out at the moment its
time ends. Bindings that are dropped only on access show the same to everyone who asks. -/
namespace SipTestbed

/-- The bindings of a domain that are live at a moment, by user. -/
structure Ledger where
  domain : Text
  now : Nat
  live : Std.ExtHashMap Text Binding

namespace Ledger

def blank (domain : Text) : Ledger := ⟨domain, 0, ∅⟩

/-- Strike out what the clock has reached. -/
def settle (l : Ledger) : Ledger := { l with live := l.live.filter fun _ b => l.now < b.deadline }

def pass (time : Nat) (l : Ledger) : Ledger := settle { l with now := l.now + time }

/-- Users are told apart by the user part of their URIs; those without one are the same user. -/
def key (u : Uri) : Text := (u.user.map UserInfo.name).getD []

def Serves (l : Ledger) (u : Uri) : Prop := Text.sameWord u.host l.domain = true

instance (l : Ledger) (u : Uri) : Decidable (l.Serves u) := inferInstanceAs (Decidable (_ = true))

def register (domain logical contact : Uri) (expiry : Nat) (l : Ledger) :
    Except BindingError Registration × Ledger :=
  if ¬ (l.Serves domain ∧ l.Serves logical) then (.error (.refused 404), l)
  else if ¬ l.now + expiry < clockLimit then (.error (.refused 400), l)
  else
    (.ok ⟨expiry / 1000000000, contact⟩,
      settle { l with live := l.live.insert (key logical) ⟨contact, l.now + expiry⟩ })

def unregister (logical : Uri) (l : Ledger) : Except BindingError Registration × Ledger :=
  match l.live[key logical]? with
  | some b => (.ok ⟨0, b.contact⟩, { l with live := l.live.erase (key logical) })
  | none => (.error (.noSuchUser (key logical)), l)

def lookup (user : Uri) (l : Ledger) : Except BindingError Registration :=
  if ¬ l.Serves user then .error (.unknownDomain user.host)
  else
    match l.live[key user]? with
    | some b => .ok ⟨(b.deadline - l.now) / 1000000000, b.contact⟩
    | none => .error (.noSuchUser (key user))

def tell : Except BindingError Registration → Bindings.Answer
  | .ok r => .registration r
  | .error e => .refusal e

def tellContact : Except BindingError Registration → Bindings.Answer
  | .ok r => .address r.contact
  | .error e => .refusal e

def perform (op : Bindings.Op) (l : Ledger) : Bindings.Answer × Ledger :=
  match op with
  | .register d u c e => (l.register d u c e).map tell id
  | .unregister u => (l.unregister u).map tell id
  | .lookup u => (tell (l.lookup u), l)
  | .address u => (tellContact (l.lookup u), l)
  | .count => (.count l.live.size, l)
  | .isEmpty => (.isEmpty l.live.isEmpty, l)

inductive Event where
  | ask (op : Bindings.Op)
  | pass (time : Nat)

def Event.action : Event → Action
  | .ask op => .bindings op
  | .pass time => .advance time

def play : List Event → Ledger → List Action.Result
  | [], _ => []
  | .ask op :: es, l => .bindings (l.perform op).1 :: play es (l.perform op).2
  | .pass time :: es, l => .done :: play es (l.pass time)

end Ledger

/-- Bindings show what a ledger holds, whatever else they have not dropped yet. -/
structure Ledger.Shows (l : Ledger) (bs : Bindings) : Prop where
  domain : bs.domain = l.domain
  distinct : bs.Distinct
  live? : ∀ user, l.live[user]? = bs.live? l.now user

namespace Ledger

variable {l : Ledger} {bs : Bindings}

theorem shows_blank (domain : Text) : (blank domain).Shows (.empty domain) where
  domain := rfl
  distinct := Bindings.distinct_empty domain
  live? _ := Std.ExtHashMap.getElem?_empty

theorem userKey_eq (u : Uri) : u.userKey = key u := rfl

theorem ofResult_eq (r : Except BindingError Registration) :
    Bindings.Answer.ofResult r = tell r := by
  cases r <;> rfl

theorem ofAddress_eq (r : Except BindingError Registration) :
    Bindings.Answer.ofAddress r = tellContact r := by
  cases r <;> rfl

theorem Shows.serves (h : l.Shows bs) (u : Uri) : bs.serves u = true ↔ l.Serves u := by
  rw [Bindings.serves, h.domain, Serves]

theorem Shows.prune (h : l.Shows bs) : l.Shows (bs.prune l.now) where
  domain := h.domain
  distinct := h.distinct.prune l.now
  live? user := by rw [h.live?, Bindings.live?_prune (Nat.le_refl _)]

theorem Shows.pass (h : l.Shows bs) (time : Nat) : (l.pass time).Shows bs where
  domain := h.domain
  distinct := h.distinct
  live? user := by
    apply Option.ext
    intro b
    simp only [Ledger.pass, settle, Std.ExtHashMap.getElem?_filter', Option.filter_eq_some_iff,
      h.live?, h.distinct.live?_eq_some_iff, decide_eq_true_eq]
    constructor
    · intro hb
      exact ⟨hb.1.1, hb.2⟩
    · intro hb
      exact ⟨⟨hb.1, by omega⟩, hb.2⟩

theorem Shows.insert (h : l.Shows bs) (user : Text) (b : Binding) :
    (settle { l with live := l.live.insert user b }).Shows (bs.insert user b) where
  domain := h.domain
  distinct := h.distinct.insert user b
  live? v := by
    simp only [settle, Std.ExtHashMap.getElem?_filter', Std.ExtHashMap.getElem?_insert, h.live?,
      Bindings.live?_insert]
    by_cases hv : v = user
    · simp [hv, Option.filter_some]
    -- Striking out leaves the other users alone, since what the ledger has of them is live.
    · have huser : (user == v) = false := by simpa using Ne.symm hv
      rw [huser, if_neg hv, if_neg (by decide)]
      apply Option.ext
      intro b
      rw [Option.filter_eq_some_iff, decide_eq_true_eq]
      exact ⟨fun hb => hb.1, fun hb => ⟨hb, Bindings.deadline_of_live? hb⟩⟩

theorem Shows.erase (h : l.Shows bs) (user : Text) :
    Shows { l with live := l.live.erase user } (bs.erase user) where
  domain := h.domain
  distinct := h.distinct.erase user
  live? v := by
    simp only [Std.ExtHashMap.getElem?_erase, h.live?, Bindings.live?_erase, beq_iff_eq]
    by_cases hv : v = user
    · rw [if_pos hv.symm, if_pos hv]
    · rw [if_neg (Ne.symm hv), if_neg hv]

theorem Shows.find? (h : l.Shows bs) (user : Text) :
    (bs.prune l.now).find? user = l.live[user]? := (h.live? user).symm

theorem Shows.pairwise (h : l.Shows bs) :
    (bs.live l.now).Pairwise fun a b => (a.1 == b.1) = false := by
  have hdistinct : (bs.live l.now).Pairwise fun a b => a.1 ≠ b.1 :=
    List.pairwise_map.1 (h.distinct.prune l.now)
  simpa using hdistinct

/-- A ledger holds the live bindings and nothing else. -/
theorem Shows.eq_ofList (h : l.Shows bs) : l.live = Std.ExtHashMap.ofList (bs.live l.now) := by
  apply Std.ExtHashMap.ext_getElem?
  intro user
  rw [h.live?]
  cases hb : bs.live? l.now user with
  | none =>
    have hnot : user ∉ (bs.live l.now).map Prod.fst := by
      intro hm
      obtain ⟨e, he, hu⟩ := List.mem_map.1 hm
      exact Bindings.live?_eq_none_iff.1 hb e he hu
    rw [Std.ExtHashMap.getElem?_ofList_of_contains_eq_false (by simpa using hnot)]
  | some b =>
    have hm : (user, b) ∈ bs.live l.now := by
      simpa [Bindings.live, Bindings.prune] using h.distinct.live?_eq_some_iff.1 hb
    rw [Std.ExtHashMap.getElem?_ofList_of_mem (by simp) h.pairwise hm]

theorem Shows.size (h : l.Shows bs) : l.live.size = (bs.live l.now).length := by
  rw [h.eq_ofList]
  exact Std.ExtHashMap.size_ofList h.pairwise

theorem Shows.register (h : l.Shows bs) (domain logical contact : Uri) (expiry : Nat) :
    (bs.register l.now domain logical contact expiry).1 =
        (l.register domain logical contact expiry).1 ∧
      (l.register domain logical contact expiry).2.Shows
        (bs.register l.now domain logical contact expiry).2 := by
  rw [Ledger.register]
  by_cases hs : l.Serves domain ∧ l.Serves logical
  · have hd := (h.serves domain).2 hs.1
    have hl := (h.serves logical).2 hs.2
    rw [if_neg (not_not_intro hs)]
    by_cases ht : l.now + expiry < clockLimit
    · rw [if_neg (not_not_intro ht), Bindings.register_eq_ok hd hl ht, userKey_eq]
      exact ⟨rfl, h.prune.insert (key logical) ⟨contact, l.now + expiry⟩⟩
    · rw [if_pos ht, Bindings.register]
      simp only [hd, hl, Nat.not_lt.1 ht]
      exact ⟨rfl, h⟩
  · have hs' : (bs.serves domain && bs.serves logical) = false := by
      rw [Bool.eq_false_iff, ne_eq, Bool.and_eq_true, h.serves, h.serves]
      exact hs
    rw [if_pos hs, Bindings.register]
    simp only [hs']
    exact ⟨rfl, h⟩

theorem Shows.unregister (h : l.Shows bs) (logical : Uri) :
    (bs.unregister l.now logical).1 = (l.unregister logical).1 ∧
      (l.unregister logical).2.Shows (bs.unregister l.now logical).2 := by
  rw [Bindings.unregister, Ledger.unregister, userKey_eq, h.find?]
  cases l.live[key logical]? with
  | some b => exact ⟨rfl, h.prune.erase (key logical)⟩
  | none => exact ⟨rfl, h.prune⟩

theorem Shows.lookup (h : l.Shows bs) (user : Uri) :
    (bs.lookup l.now user).1 = l.lookup user ∧ l.Shows (bs.lookup l.now user).2 := by
  rw [Bindings.lookup, Ledger.lookup, userKey_eq]
  by_cases hs : l.Serves user
  · rw [if_neg (by simp [(h.serves user).2 hs]), if_neg (not_not_intro hs), h.find?]
    cases l.live[key user]? with
    | some b => exact ⟨rfl, h.prune⟩
    | none => exact ⟨rfl, h.prune⟩
  · have hs' : bs.serves user = false := by
      rw [Bool.eq_false_iff, ne_eq, h.serves]
      exact hs
    rw [if_pos (by simp [hs']), if_pos hs]
    exact ⟨rfl, h⟩

theorem Shows.perform (h : l.Shows bs) (op : Bindings.Op) :
    (bs.perform l.now op).1 = (l.perform op).1 ∧
      (l.perform op).2.Shows (bs.perform l.now op).2 := by
  cases op with
  | register domain logical contact expiry =>
    obtain ⟨hr, hs⟩ := h.register domain logical contact expiry
    exact ⟨(ofResult_eq _).trans (congrArg tell hr), hs⟩
  | unregister logical =>
    obtain ⟨hr, hs⟩ := h.unregister logical
    exact ⟨(ofResult_eq _).trans (congrArg tell hr), hs⟩
  | lookup user =>
    obtain ⟨hr, hs⟩ := h.lookup user
    exact ⟨(ofResult_eq _).trans (congrArg tell hr), hs⟩
  | address user =>
    obtain ⟨hr, hs⟩ := h.lookup user
    exact ⟨(ofAddress_eq _).trans (congrArg tellContact hr), hs⟩
  | count => exact ⟨congrArg Bindings.Answer.count h.size.symm, h.prune⟩
  | isEmpty =>
    have hempty : ((bs.live l.now).length == 0) = l.live.isEmpty := by
      rw [← h.size, Bool.eq_iff_iff, beq_iff_eq, Std.ExtHashMap.isEmpty_iff,
        Std.ExtHashMap.eq_empty_iff_size_eq_zero]
    exact ⟨congrArg Bindings.Answer.isEmpty hempty, h.prune⟩

theorem now_perform (op : Bindings.Op) (l : Ledger) : (l.perform op).2.now = l.now := by
  cases op with
  | register domain logical contact expiry =>
    change (l.register domain logical contact expiry).2.now = l.now
    rw [Ledger.register]
    split
    · rfl
    · split <;> rfl
  | unregister logical =>
    change (l.unregister logical).2.now = l.now
    rw [Ledger.unregister]
    split <;> rfl
  | lookup user => rfl
  | address user => rfl
  | count => rfl
  | isEmpty => rfl

theorem Shows.play {s : Session} (h : l.Shows s.bindings) (hnow : s.world.now = l.now)
    (es : List (Fresh × Event)) :
    ((s.play (es.map fun e => (e.1, e.2.action))).map fun p => p.1.result) =
      l.play (es.map Prod.snd) := by
  induction es generalizing l s with
  | nil => rfl
  | cons e es ih =>
    obtain ⟨fresh, e⟩ := e
    cases e with
    | ask op =>
      obtain ⟨hr, hs⟩ := h.perform op
      rw [← hnow] at hr hs
      have hrest := ih (s := (s.act fresh (.bindings op)).2) hs (hnow.trans (now_perform op l).symm)
      exact congrArg₂ List.cons (congrArg Action.Result.bindings hr) hrest
    | pass time =>
      have hrest := ih (s := (s.act fresh (.advance time)).2) (h.pass time)
        (congrArg (· + time) hnow)
      exact congrArg (List.cons Action.Result.done) hrest

/-- Every question to the bindings of a session, asked at any time between the others, is answered
as by the ledger. -/
theorem play_eq (names : Text → List IpAddr) (domain : Text) (defaultExpiry : Nat) (policy : Policy)
    (es : List (Fresh × Event)) :
    (((Session.start names (.ofDomain domain defaultExpiry policy)).play
        (es.map fun e => (e.1, e.2.action))).map fun p => p.1.result) =
      (blank domain).play (es.map Prod.snd) :=
  (shows_blank domain).play rfl es

end Ledger
end SipTestbed
