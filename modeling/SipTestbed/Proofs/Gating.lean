import SipTestbed.Proofs.Ruling
import SipTestbed.Session

/-! The policy stands before the registrar: it is asked once for each registration and for nothing
else, and the bindings change only where it allows it. -/
namespace SipTestbed

theorem Registrar.answer_of_tag (now : Nat) {fresh fresh' : Fresh} (h : fresh.tag = fresh'.tag)
    (req : Request) (port : UInt16) (r : Registrar) :
    r.answer now fresh req port = r.answer now fresh' req port := by
  have hc (reg : Registration) : confirmation fresh req reg = confirmation fresh' req reg := by
    rw [confirmation, confirmation, h]
  simp only [answer, h, hc]

theorem Registrar.answer_snd (now : Nat) (fresh fresh' : Fresh) (req : Request) (port : UInt16)
    (r : Registrar) : (r.answer now fresh req port).2 = (r.answer now fresh' req port).2 := by
  rw [answer, answer]
  cases Intent.ofRequest r.defaultExpiry port req with
  | error f => rfl
  | ok ui =>
    obtain ⟨user, intent⟩ := ui
    simp only
    cases intent.fulfil now user r.bindings with
    | mk result bs => cases result <;> rfl

theorem dests_deliver_congr (w : World) {r r' : Response}
    (h : r.headers.get? "via".toList = r'.headers.get? "via".toList) :
    (r.deliver w).sent.map Attempt.dest = (r'.deliver w).sent.map Attempt.dest := by
  rw [Response.deliver, Response.deliver, topVia_congr h]
  cases r'.topVia >>= Via.destination w <;> rfl

namespace Gate

/-- A datagram with a REGISTER whose top Via is a good one. -/
def IsRegistration (data : Utf8.Octets) (raw : Request) : Prop :=
  Message.parse data = .ok (.request raw) ∧ raw.method = "REGISTER".toList ∧
    ∃ v, raw.via? = some v

/-- The gate without its policy. -/
def opened (g : Gate) : Gate := { g with policy := .unrestricted }

theorem read?_of_isRegistration {data : Utf8.Octets} {raw : Request} (h : IsRegistration data raw)
    (src : Endpoint) :
    ∃ r, raw.stamp src = .ok r ∧ read? data src = some r ∧ r.method = "REGISTER".toList := by
  obtain ⟨hparse, hm, hvia⟩ := h
  obtain ⟨r, hr⟩ := Request.stamp_eq_ok_iff.2 hvia
  exact ⟨r, hr, read?_eq_some_iff.2 ⟨raw, hparse, hr⟩, (Request.stamp_frame hr).1.trans hm⟩

theorem method_of_read? {data : Utf8.Octets} {src : Endpoint} {r : Request}
    (hno : ∀ raw, ¬ IsRegistration data raw) (h : read? data src = some r) :
    r.method ≠ "REGISTER".toList := by
  obtain ⟨raw, hparse, hr⟩ := read?_eq_some_iff.1 h
  intro hm
  have hraw : raw.method = "REGISTER".toList := (Request.stamp_frame hr).1.symm.trans hm
  exact hno raw ⟨hparse, hraw, Request.via?_of_stamp hr⟩

theorem handle_of_isRegistration {data : Utf8.Octets} {src : Endpoint} {r : Request}
    (h : read? data src = some r) (hm : r.method = "REGISTER".toList) (w : World) (fresh : Fresh)
    (g : Gate) :
    g.handle w fresh data src =
      (g.judge w.now fresh ⟨r, src.ip.render, src.port⟩).carryOut w g := by
  simp only [handle_eq, h, rule, if_pos hm]

theorem handle_of_not_isRegistration {w : World} {fresh : Fresh} {data : Utf8.Octets}
    {src : Endpoint} {g : Gate} (hno : ∀ raw, ¬ IsRegistration data raw) :
    (g.handle w fresh data src).asked = [] ∧
      (g.handle w fresh data src).gate.bindings = g.bindings := by
  rw [handle_eq]
  cases h : read? data src with
  | none => exact ⟨rfl, rfl⟩
  | some r =>
    simp only [rule, if_neg (method_of_read? hno h)]
    split <;> simp

/-- A step that answers with a code, if at all, and touches no binding. -/
def Refuses (code : UInt16) (g : Gate) (s : Step) : Prop :=
  s.gate.bindings = g.bindings ∧ ∀ a ∈ s.sent, a.status? = some code

theorem refuses_of_reply {w : World} {g : Gate} {d : Ruling} {resp : Response} {code : UInt16}
    (hb : d.bindings = g.bindings) (hr : d.reply = some resp) (hc : resp.code = code) :
    Refuses code g (d.carryOut w g) := by
  refine ⟨hb, ?_⟩
  intro a ha
  obtain ⟨resp', hr', ha'⟩ := Ruling.mem_sent_carryOut ha
  rw [hr, Option.some.injEq] at hr'
  subst hr'
  rw [← hc]
  exact status?_of_mem_deliver ha'

/-- Steps that leave the same registrar and send the same, but for the tag of the reply. -/
def SameUpToTag (tag tag' : Token 16) (s s' : Step) : Prop :=
  s.gate.registrar = s'.gate.registrar ∧ s.sent.map Attempt.dest = s'.sent.map Attempt.dest ∧
    (tag = tag' → s.sent = s'.sent)

theorem sameUpToTag_answer (w : World) (fresh fresh' : Fresh) (req : Request) (port : UInt16)
    (asked asked' : List Call) (g g' : Gate) (hg : g.registrar = g'.registrar) :
    SameUpToTag fresh.tag fresh'.tag
      ((Ruling.mk (some (g.registrar.answer w.now fresh req port).1) asked
        (g.registrar.answer w.now fresh req port).2).carryOut w g)
      ((Ruling.mk (some (g'.registrar.answer w.now fresh' req port).1) asked'
        (g'.registrar.answer w.now fresh' req port).2).carryOut w g') := by
  rw [← hg]
  refine ⟨?_, ?_, ?_⟩
  · simp only [Ruling.carryOut, withBindings]
    rw [Registrar.answer_snd w.now fresh fresh', hg]
  · apply dests_deliver_congr
    rw [Registrar.get?_via_answer, Registrar.get?_via_answer]
  · intro htag
    simp only [Ruling.carryOut, Registrar.answer_of_tag w.now htag]

theorem calls_handle (w : World) (fresh : Fresh) (data : Utf8.Octets) (src : Endpoint) (g : Gate) :
    (g.handle w fresh data src).gate.calls = g.calls ++ (g.handle w fresh data src).asked ∧
      (g.handle w fresh data src).gate.policy = g.policy := by
  rw [handle_eq]
  cases read? data src with
  | none => exact ⟨(List.append_nil _).symm, rfl⟩
  | some r => exact ⟨rfl, rfl⟩

theorem handle_judged {g : Gate} {judge : List Call → Call → Verdict} {data : Utf8.Octets}
    {raw : Request} (hp : g.policy = .ask judge) (hreg : IsRegistration data raw) (w : World)
    (fresh : Fresh) (src : Endpoint) :
    ∃ r, raw.stamp src = .ok r ∧
      (g.handle w fresh data src).asked = [⟨r, src.ip.render, src.port⟩] ∧
      match judge g.calls ⟨r, src.ip.render, src.port⟩ with
      | .allow => ∀ fresh', SameUpToTag fresh.tag fresh'.tag (g.handle w fresh data src)
          (g.opened.handle w fresh' data src)
      | .deny => Refuses 401 g (g.handle w fresh data src)
      | .crash => Refuses 500 g (g.handle w fresh data src) := by
  obtain ⟨r, hr, hread, hm⟩ := read?_of_isRegistration hreg src
  have hstep := handle_of_isRegistration hread hm w fresh g
  refine ⟨r, hr, ?_⟩
  rw [hstep, Gate.judge, hp]
  simp only
  cases hj : judge g.calls ⟨r, src.ip.render, src.port⟩ with
  | allow =>
    refine ⟨rfl, ?_⟩
    intro fresh'
    have hopen := handle_of_isRegistration hread hm w fresh' g.opened
    rw [hopen]
    exact sameUpToTag_answer w fresh fresh' r src.port _ _ g g.opened rfl
  | deny =>
    refine ⟨rfl, ?_⟩
    exact refuses_of_reply rfl rfl rfl
  | crash =>
    refine ⟨rfl, ?_⟩
    exact refuses_of_reply rfl rfl rfl

theorem asked_of_unrestricted {g : Gate} (hp : g.policy = .unrestricted) (w : World)
    (fresh : Fresh) (data : Utf8.Octets) (src : Endpoint) :
    (g.handle w fresh data src).asked = [] := by
  rw [handle_eq]
  cases read? data src with
  | none => rfl
  | some r =>
    simp only [rule, Gate.judge, hp]
    split
    · rfl
    · split <;> rfl

theorem calls_register (w : World) (fresh : Fresh) (call : Call) (g : Gate) :
    (g.register w fresh call).2.gate.calls = g.calls ++ (g.register w fresh call).2.asked ∧
      (g.register w fresh call).2.gate.policy = g.policy := by
  rw [register]
  cases hp : g.policy with
  | unrestricted => exact ⟨rfl, hp⟩
  | ask judge =>
    simp only
    cases judge g.calls call <;> exact ⟨rfl, hp⟩

theorem register_bindings {g : Gate} {judge : List Call → Call → Verdict}
    (hp : g.policy = .ask judge) (w : World) (fresh : Fresh) (call : Call) :
    (g.register w fresh call).2.gate.bindings = g.bindings ∨
      (judge g.calls call = .allow ∧ (g.register w fresh call).2.asked = [call]) := by
  rw [register, hp]
  simp only
  cases hj : judge g.calls call with
  | allow => exact Or.inr ⟨rfl, rfl⟩
  | deny => exact Or.inl rfl
  | crash => exact Or.inl rfl

theorem handle_bindings {g : Gate} {judge : List Call → Call → Verdict} (hp : g.policy = .ask judge)
    (w : World) (fresh : Fresh) (data : Utf8.Octets) (src : Endpoint) :
    (g.handle w fresh data src).gate.bindings = g.bindings ∨
      ∃ call, judge g.calls call = .allow ∧ (g.handle w fresh data src).asked = [call] := by
  by_cases hreg : ∃ raw, IsRegistration data raw
  · obtain ⟨raw, hraw⟩ := hreg
    obtain ⟨r, -, hread, hm⟩ := read?_of_isRegistration hraw src
    rw [handle_of_isRegistration hread hm, Gate.judge, hp]
    simp only
    cases hj : judge g.calls ⟨r, src.ip.render, src.port⟩ with
    | allow => exact Or.inr ⟨_, hj, rfl⟩
    | deny => exact Or.inl rfl
    | crash => exact Or.inl rfl
  · exact Or.inl (handle_of_not_isRegistration fun raw h => hreg ⟨raw, h⟩).2

end Gate

/-- All but a direct question to the bindings. -/
def Action.Guarded : Action → Prop
  | .bindings _ => False
  | _ => True

namespace Session

theorem calls_act (fresh : Fresh) (a : Action) (s : Session) :
    (s.act fresh a).2.gate.calls = s.gate.calls ++ (s.act fresh a).1.asked ∧
      (s.act fresh a).2.gate.policy = s.gate.policy := by
  cases a with
  | arrive data src =>
    rw [act]
    by_cases hl : s.listening = true
    · rw [if_pos hl]
      exact Gate.calls_handle s.world fresh _ src s.gate
    · rw [if_neg hl]
      exact ⟨(List.append_nil _).symm, rfl⟩
  | handle data src => exact Gate.calls_handle s.world fresh data src s.gate
  | register call => exact Gate.calls_register s.world fresh call s.gate
  | receiveError => exact ⟨(List.append_nil _).symm, rfl⟩
  | bindings op => exact ⟨(List.append_nil _).symm, rfl⟩
  | domain => exact ⟨(List.append_nil _).symm, rfl⟩
  | advance time => exact ⟨(List.append_nil _).symm, rfl⟩
  | network up => exact ⟨(List.append_nil _).symm, rfl⟩

theorem bindings_act {s : Session} {judge : List Call → Call → Verdict}
    (hp : s.gate.policy = .ask judge) (fresh : Fresh) {a : Action} (ha : a.Guarded) :
    (s.act fresh a).2.bindings = s.bindings ∨
      ∃ call, judge s.gate.calls call = .allow ∧ (s.act fresh a).1.asked = [call] := by
  cases a with
  | arrive data src =>
    rw [act]
    by_cases hl : s.listening = true
    · rw [if_pos hl]
      exact Gate.handle_bindings hp s.world fresh _ src
    · rw [if_neg hl]
      exact Or.inl rfl
  | handle data src => exact Gate.handle_bindings hp s.world fresh data src
  | register call =>
    cases Gate.register_bindings hp s.world fresh call with
    | inl h => exact Or.inl h
    | inr h => exact Or.inr ⟨call, h⟩
  | bindings op => exact absurd ha id
  | receiveError => exact Or.inl rfl
  | domain => exact Or.inl rfl
  | advance time => exact Or.inl rfl
  | network up => exact Or.inl rfl

theorem calls_after (as : List (Fresh × Action)) (s : Session) :
    (s.after as).gate.calls = s.gate.calls ++ (s.play as).flatMap fun p => p.1.asked := by
  induction as generalizing s with
  | nil => simp [after, play]
  | cons a as ih =>
    obtain ⟨fresh, a⟩ := a
    have hstep := (calls_act fresh a s).1
    have hrest := ih (s.act fresh a).2
    rw [hstep, List.append_assoc] at hrest
    exact hrest

theorem bindings_after {judge : List Call → Call → Verdict} (as : List (Fresh × Action))
    (hall : ∀ a ∈ as, a.2.Guarded) (s : Session) (hp : s.gate.policy = .ask judge)
    (hno : ∀ earlier call, s.gate.calls <+: earlier →
      earlier ++ [call] <+: (s.after as).gate.calls → judge earlier call ≠ .allow) :
    (s.after as).bindings = s.bindings := by
  induction as generalizing s with
  | nil => rfl
  | cons a as ih =>
    obtain ⟨fresh, a⟩ := a
    have hcalls := calls_act fresh a s
    have hrest : ((s.act fresh a).2.after as).bindings = (s.act fresh a).2.bindings := by
      apply ih
      · exact fun b hb => hall b (List.mem_cons_of_mem _ hb)
      · exact hcalls.2.trans hp
      · intro earlier call hpre
        apply hno earlier call
        rw [hcalls.1] at hpre
        exact (List.prefix_append _ _).trans hpre
    cases bindings_act hp fresh (hall (fresh, a) (by simp)) with
    | inl h => exact hrest.trans h
    | inr h =>
      obtain ⟨call, hallow, hasked⟩ := h
      -- The call stands in the log right after the calls that it was judged by.
      have hlog : s.gate.calls ++ [call] <+: (s.after ((fresh, a) :: as)).gate.calls := by
        have hafter := calls_after as (s.act fresh a).2
        rw [hcalls.1, hasked] at hafter
        exact ⟨_, hafter.symm⟩
      exact absurd hallow (hno s.gate.calls call (List.prefix_refl _) hlog)

end Session

/-- The policy is asked about each registration once, with the request as stamped and its source,
and about nothing else. What it denies or breaks down on is answered with a 401 or a 500 and
touches no binding; what it allows is served as without a policy. So over a whole run, whatever
comes at the socket or is handed over directly, the calls are those that the steps show, and no
binding changes unless one of them is allowed. -/
theorem Gate.handle_gated :
    (∀ (w : World) (fresh : Fresh) (data : Utf8.Octets) (src : Endpoint) (g : Gate),
      (∀ judge raw, g.policy = .ask judge → IsRegistration data raw →
        ∃ r, raw.stamp src = .ok r ∧
          (g.handle w fresh data src).asked = [⟨r, src.ip.render, src.port⟩] ∧
          match judge g.calls ⟨r, src.ip.render, src.port⟩ with
          | .allow => ∀ fresh', SameUpToTag fresh.tag fresh'.tag (g.handle w fresh data src)
              (g.opened.handle w fresh' data src)
          | .deny => Refuses 401 g (g.handle w fresh data src)
          | .crash => Refuses 500 g (g.handle w fresh data src)) ∧
      ((∀ raw, ¬ IsRegistration data raw) →
        (g.handle w fresh data src).asked = [] ∧
          (g.handle w fresh data src).gate.bindings = g.bindings) ∧
      (g.policy = .unrestricted → (g.handle w fresh data src).asked = []) ∧
      (g.handle w fresh data src).gate.calls = g.calls ++ (g.handle w fresh data src).asked ∧
      (g.handle w fresh data src).gate.policy = g.policy) ∧
    ∀ (as : List (Fresh × Action)) (s : Session),
      ((s.after as).gate.calls = s.gate.calls ++ (s.play as).flatMap fun p => p.1.asked) ∧
      ∀ judge, s.gate.policy = .ask judge → (∀ a ∈ as, a.2.Guarded) →
        (∀ earlier call, s.gate.calls <+: earlier →
          earlier ++ [call] <+: (s.after as).gate.calls → judge earlier call ≠ .allow) →
        (s.after as).bindings = s.bindings := by
  constructor
  · intro w fresh data src g
    exact ⟨fun judge raw hp hreg => handle_judged hp hreg w fresh src, handle_of_not_isRegistration,
      fun hp => asked_of_unrestricted hp w fresh data src, calls_handle w fresh data src g⟩
  · intro as s
    exact ⟨Session.calls_after as s,
      fun judge hp hall hno => Session.bindings_after as hall s hp hno⟩

end SipTestbed
