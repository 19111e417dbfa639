import SipTestbed.Scenario

/-! The receive loop hands datagrams to the gate and does nothing else. The rule for it is a gate
without a socket, which is given the datagrams one after the other until reading them fails. A
session at a socket refines it step by step, so that what a run shows, and what it leaves, are told
by the rule. The buffer has no part in it, since only the last datagram is ever read back. -/
namespace SipTestbed

/-- A gate and its surroundings with no socket between them. -/
structure Unplugged where
  world : World
  gate : Gate
  fed : Bool

namespace Unplugged

/-- What happens to the gate at each event. The first error of the socket cuts it off from later
datagrams, while direct events reach it as before. -/
def step (fresh : Fresh) : Action → Unplugged → Report × Unplugged
  | .arrive data src, u =>
    if u.fed then
      let st := u.gate.handle u.world fresh (data.take 65535) src
      (⟨.done, st.sent, st.asked⟩, { u with gate := st.gate })
    else (⟨.done, [], []⟩, u)
  | .receiveError, u => (⟨.done, [], []⟩, { u with fed := false })
  | .handle data src, u =>
    let st := u.gate.handle u.world fresh data src
    (⟨.done, st.sent, st.asked⟩, { u with gate := st.gate })
  | .register call, u =>
    match u.gate.register u.world fresh call with
    | (.ok (), st) => (⟨.done, st.sent, st.asked⟩, { u with gate := st.gate })
    | (.error f, st) => (⟨.fault f, st.sent, st.asked⟩, { u with gate := st.gate })
  | .bindings op, u =>
    let (answer, bindings) := u.gate.registrar.bindings.perform u.world.now op
    let gate := { u.gate with registrar := { u.gate.registrar with bindings } }
    (⟨.bindings answer, [], []⟩, { u with gate })
  | .domain, u => (⟨.domain u.gate.registrar.bindings.domain, [], []⟩, u)
  | .advance time, u =>
    (⟨.done, [], []⟩, { u with world := { u.world with now := u.world.now + time } })
  | .network up, u => (⟨.done, [], []⟩, { u with world := { u.world with networkUp := up } })

def play : List (Fresh × Action) → Unplugged → List (Report × Unplugged)
  | [], _ => []
  | (fresh, a) :: as, u => u.step fresh a :: play as (u.step fresh a).2

end Unplugged

namespace Session

def unplugged (s : Session) : Unplugged := ⟨s.world, s.gate, s.listening⟩

theorem act_unplugged (fresh : Fresh) (a : Action) (s : Session) :
    (s.act fresh a).map id unplugged = s.unplugged.step fresh a := by
  obtain ⟨world, gate, listening, buffer⟩ := s
  cases a with
  | arrive data src =>
    cases listening with
    | true =>
      -- Nothing of an earlier datagram is read back, however long it was.
      have hread : (buffer.write data).octets.take (Buffer.fill data) = data.take 65535 :=
        Buffer.take_write data buffer
      simp only [act, if_true, hread]
      rfl
    | false => rfl
  | register call =>
    simp only [act, unplugged, Unplugged.step]
    rcases gate.register world fresh call with ⟨_ | _, st⟩ <;> rfl
  | _ => rfl

theorem play_unplugged (as : List (Fresh × Action)) (s : Session) :
    (s.play as).map (Prod.map id unplugged) = s.unplugged.play as := by
  induction as generalizing s with
  | nil => rfl
  | cons a as ih =>
    obtain ⟨fresh, a⟩ := a
    have hstep := act_unplugged fresh a s
    have hrest := ih (s.act fresh a).2
    have hnext : (s.act fresh a).2.unplugged = (s.unplugged.step fresh a).2 :=
      congrArg Prod.snd hstep
    rw [hnext] at hrest
    rw [play, List.map_cons, Unplugged.play, hstep, hrest]

theorem listening_act (fresh : Fresh) (a : Action) (s : Session) :
    (s.act fresh a).2.listening = true ↔ s.listening = true ∧ a ≠ .receiveError := by
  cases a with
  | arrive data src =>
    cases hs : s.listening <;> simp [act, hs, ofStep, quiet]
  | receiveError => simp [act, quiet]
  | _ => simp [act, ofStep, quiet, withBindings]

/-- The loop runs on through everything but an error of the socket. -/
theorem listening_after (as : List (Fresh × Action)) (s : Session) :
    (s.after as).listening = true ↔
      s.listening = true ∧ ∀ a ∈ as, a.2 ≠ .receiveError := by
  induction as generalizing s with
  | nil => simp [after]
  | cons a as ih =>
    have hrest := ih (s.act a.1 a.2).2
    rw [listening_act, and_assoc] at hrest
    rw [List.forall_mem_cons]
    exact hrest

theorem act_arrive_of_ended {s : Session} (h : s.listening = false) (fresh : Fresh)
    (data : Utf8.Octets) (src : Endpoint) :
    s.act fresh (.arrive data src) = (⟨.done, [], []⟩, s) := by
  rw [act, h, if_neg Bool.false_ne_true, quiet]

end Session

namespace Scenario

theorem tryBind_snd_iff {canBind : Endpoint → Bool} {es : List Endpoint} :
    (tryBind canBind es).2 = true ↔ ∃ e ∈ es, canBind e = true := by
  induction es with
  | nil => simp [tryBind]
  | cons e es ih =>
    rw [tryBind]
    split
    · rename_i h
      simp [h]
    · rename_i h
      simp [h, ih]

theorem ran_of_bound {ρ : Type} {names : Text → List IpAddr} {canBind : Endpoint → Bool}
    {h : Harness ρ} {p : Profile} (policy : Policy) (hcreate : h.create (test p) = .ok ())
    (hbind : ∃ e ∈ endpoints names p, canBind e = true) :
    (run names canBind h p policy).ran = some (h.run (session names p policy)).1 := by
  have hbound := tryBind_snd_iff.2 hbind
  rw [run, hcreate]
  simp only
  split
  · rename_i hno
    rw [hno] at hbound
    cases hbound
  · rfl

/-- A test whose harness plays some events, once it has come to a run: each event shows and leaves
the same as at a gate with the profile's domain and default expiry that stands behind no socket and
is given the datagrams in order, up to the first error of the socket. The loop runs on through
everything else. After its end a datagram shows nothing and changes nothing. A harness that is
created without fail and only waits sees the same. -/
theorem ran_unplugged (names : Text → List IpAddr) (canBind : Endpoint → Bool)
    (h : Harness (List (Report × Session))) (p : Profile) (policy : Policy)
    (as : List (Fresh × Action)) (hplay : ∀ s, (h.run s).1 = s.play as)
    (hcreate : h.create (test p) = .ok ())
    (hbind : ∃ e ∈ endpoints names p, canBind e = true) :
    (∃ trace, (run names canBind h p policy).ran = some trace ∧
      (run names canBind (standalone as) p policy).ran = some trace ∧
      (trace.map fun q => (q.1, Unplugged.mk q.2.world q.2.gate q.2.listening)) =
        Unplugged.play as
          ⟨⟨0, true, names⟩,
            ⟨⟨p.defaultExpirySecs.toNat, ⟨p.registrarDomain, []⟩⟩, policy, []⟩, true⟩) ∧
    ∀ before, before <+: as →
      let s := (session names p policy).after before
      (s.listening = true ↔ ∀ a ∈ before, a.2 ≠ .receiveError) ∧
      ((∃ a ∈ before, a.2 = .receiveError) → ∀ fresh data src,
        s.act fresh (.arrive data src) = (⟨.done, [], []⟩, s)) := by
  constructor
  · have hran := ran_of_bound policy hcreate hbind
    rw [hplay] at hran
    have hwait : (run names canBind (standalone as) p policy).ran =
        some ((session names p policy).play as) := ran_of_bound policy rfl hbind
    exact ⟨(session names p policy).play as, hran, hwait, Session.play_unplugged as _⟩
  · intro before _ s
    have hlistening : s.listening = true ↔ ∀ a ∈ before, a.2 ≠ .receiveError :=
      (Session.listening_after before _).trans (and_iff_right rfl)
    refine ⟨hlistening, ?_⟩
    rintro ⟨a, ha, herror⟩ fresh data src
    have hended : s.listening = false := by
      rw [Bool.eq_false_iff, Ne, hlistening]
      exact fun hall => hall a ha herror
    exact Session.act_arrive_of_ended hended fresh data src

def aliceFor (seconds : String) : Utf8.Octets :=
  Utf8.encode ("REGISTER sip:127.0.0.1 SIP/2.0\r\nVia: SIP/2.0/UDP 127.0.0.1:5060\r\n".toList ++
    "To: <sip:alice@127.0.0.1>\r\nContact: <sip:alice@h:5060>\r\nExpires: ".toList ++
      seconds.toList ++ "\r\n\r\n".toList)

def alice : Uri :=
  ⟨.sip, some ⟨"alice".toList, none⟩, ⟨"127.0.0.1".toList, none⟩, [], none⟩

/-- Alice registers before an error of the socket. Her removal comes too late at the socket, and is
taken when it is handed over directly, ten seconds on. -/
def aroundError : List (Fresh × Action) :=
  [(.zero, .arrive (aliceFor "60") ⟨.v4 127 0 0 1, 5060⟩), (.zero, .receiveError),
    (.zero, .arrive (aliceFor "0") ⟨.v4 127 0 0 1, 5060⟩), (.zero, .advance (10 * second)),
    (.zero, .bindings (.lookup alice)),
    (.zero, .handle (aliceFor "0") ⟨.v4 127 0 0 1, 5060⟩), (.zero, .bindings (.lookup alice))]

theorem ran_unplugged_aroundError : ∃ trace,
    (run (fun _ => []) (fun _ => true) (standalone aroundError) .default .unrestricted).ran =
        some trace ∧
      (trace.map fun q => (q.1, Unplugged.mk q.2.world q.2.gate q.2.listening)) =
        Unplugged.play aroundError ⟨⟨0, true, fun _ => []⟩,
          ⟨⟨3600, ⟨"127.0.0.1".toList, []⟩⟩, .unrestricted, []⟩, true⟩ ∧
      (trace.map fun q => q.1.sent.length) = [1, 0, 0, 0, 0, 1, 0] ∧
      (trace.map fun q => q.2.gate.bindings.entries.length) = [1, 1, 1, 1, 1, 0, 0] ∧
      (trace.map fun q =>
        match q.1.result with
        | .bindings (.registration r) => some r.seconds
        | _ => none) = [none, none, none, none, some 50, none, none] := by
  have hbind : ∃ e ∈ endpoints (fun _ => []) .default, (fun _ => true) e = true :=
    ⟨⟨.v4 0 0 0 0, Profile.default.port⟩, by decide, rfl⟩
  obtain ⟨⟨trace, hran, -, hshown⟩, -⟩ := ran_unplugged (fun _ => []) (fun _ => true)
    (standalone aroundError) .default .unrestricted aroundError (fun _ => rfl) rfl hbind
  have htrace : (run (fun _ => []) (fun _ => true) (standalone aroundError) .default
      .unrestricted).ran = some ((session (fun _ => []) .default .unrestricted).play aroundError) :=
    ran_of_bound .unrestricted rfl hbind
  rw [hran, Option.some.injEq] at htrace
  subst htrace
  exact ⟨_, hran, hshown, by decide +kernel, by decide +kernel, by decide +kernel⟩

end Scenario
end SipTestbed
