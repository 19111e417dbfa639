import SipTestbed.Scenario

/-! Setting up a test, with what is asked of the surroundings in order. These are kept as general as
they can be: each of their answers may depend on all that was done before. -/
namespace SipTestbed

inductive Effect where
  | create (t : Test)
  | look (host : Text)
  | bind (e : Endpoint)
  | run (s : Session)

namespace Effect

def created? : Effect → Option Test
  | .create t => some t
  | _ => none

def bound? : Effect → Option Endpoint
  | .bind e => some e
  | _ => none

def tries (port : UInt16) (ips : List IpAddr) : List Effect := ips.map fun ip => .bind ⟨ip, port⟩

theorem created_tries (port : UInt16) (ips : List IpAddr) :
    (tries port ips).filterMap created? = [] := by
  refine List.filterMap_eq_nil_iff.2 fun e he => ?_
  obtain ⟨ip, -, rfl⟩ := List.mem_map.1 he
  rfl

theorem bound_tries (port : UInt16) (ips : List IpAddr) :
    (tries port ips).filterMap bound? = ips.map fun ip => ⟨ip, port⟩ := by
  rw [tries, List.filterMap_map]
  exact congrFun (List.filterMap_eq_map (f := fun ip => Endpoint.mk ip port)) ips

end Effect

theorem Scenario.tryBind_append {canBind : Endpoint → Bool} {es : List Endpoint}
    (hrefused : ∀ e ∈ es, canBind e = false) (rest : List Endpoint) :
    tryBind canBind (es ++ rest) =
      (es ++ (tryBind canBind rest).1, (tryBind canBind rest).2) := by
  induction es with
  | nil => rfl
  | cons e es ih =>
    obtain ⟨he, hes⟩ := List.forall_mem_cons.1 hrefused
    rw [List.cons_append, tryBind, he, ih hes]
    rfl

namespace Surroundings

variable {σ ω : Type}

section
variable {m : Type → Type} [Monad m]

def noted {α : Type} (e : Effect) (x : m α) : StateT (List Effect) m α := do
  modify (· ++ [e])
  x

def traced (w : Surroundings m σ) : Surroundings (StateT (List Effect) m) σ where
  create t := noted (.create t) (w.create t)
  look host := noted (.look host) (w.look host)
  bind e := noted (.bind e) (w.bind e)
  run socket s := noted (.run s) (w.run socket s)

variable (w : Surroundings m σ)

theorem traced_create (t : Test) : w.traced.create t = noted (.create t) (w.create t) := rfl

theorem traced_look (host : Text) : w.traced.look host = noted (.look host) (w.look host) := rfl

theorem traced_bind (e : Endpoint) : w.traced.bind e = noted (.bind e) (w.bind e) := rfl

theorem traced_run (socket : σ) (s : Session) :
    w.traced.run socket s = noted (.run s) (w.run socket s) := rfl

end

inductive Refused (w : Surroundings (StateM ω) σ) : List Endpoint → ω → ω → Prop where
  | nil {s : ω} : Refused w [] s s
  | cons {e : Endpoint} {es : List Endpoint} {s s₁ s' : ω} : (w.bind e).run s = (none, s₁) →
      Refused w es s₁ s' → Refused w (e :: es) s s'

/-- The addresses of a host, what is asked for to find them, and the state left behind. -/
inductive Finds (w : Surroundings (StateM ω) σ) (host : Text) (s : ω) :
    List IpAddr → List Effect → ω → Prop where
  | literal {ip : IpAddr} : IpAddr.parse? host = some ip → Finds w host s [ip] [] s
  | unaskable : IpAddr.parse? host = none → '\x00' ∈ host → Finds w host s [] [] s
  | unknown {s' : ω} : IpAddr.parse? host = none → '\x00' ∉ host →
      (w.look host).run s = (none, s') → Finds w host s [] [.look host] s'
  | found {ips : List IpAddr} {s' : ω} : IpAddr.parse? host = none → '\x00' ∉ host →
      (w.look host).run s = (some ips, s') → Finds w host s ips [.look host] s'

/-- How setting up a test and running it ends, with what is asked for on the way. -/
inductive SetsUp (w : Surroundings (StateM ω) σ) (names : Text → List IpAddr) (p : Profile)
    (policy : Policy) (s : ω) : Except SetupError Unit → List Effect → ω → Prop where
  | notCreated {e : SetupError} {s' : ω} :
      (w.create (Scenario.test p)).run s = (.error e, s') →
      SetsUp w names p policy s (.error e) [.create (Scenario.test p)] s'
  | notBound {ips : List IpAddr} {looked : List Effect} {s₁ s₂ s' : ω} :
      (w.create (Scenario.test p)).run s = (.ok (), s₁) →
      w.Finds p.bindHost s₁ ips looked s₂ →
      w.Refused (ips.map fun ip => ⟨ip, p.port⟩) s₂ s' →
      SetsUp w names p policy s (.error (.bind p.port))
        (.create (Scenario.test p) :: looked ++ Effect.tries p.port ips) s'
  | ran {before after : List IpAddr} {ip : IpAddr} {looked : List Effect} {socket : σ}
      {s₁ s₂ s₃ s₄ s' : ω} {result : Except SetupError Unit} :
      (w.create (Scenario.test p)).run s = (.ok (), s₁) →
      w.Finds p.bindHost s₁ (before ++ ip :: after) looked s₂ →
      w.Refused (before.map fun ip => ⟨ip, p.port⟩) s₂ s₃ →
      (w.bind ⟨ip, p.port⟩).run s₃ = (some socket, s₄) →
      (w.run socket (Scenario.session names p policy)).run s₄ = (result, s') →
      SetsUp w names p policy s result
        (.create (Scenario.test p) :: looked ++ Effect.tries p.port (before ++ [ip]) ++
          [.run (Scenario.session names p policy)]) s'

section
variable {w : Surroundings (StateM ω) σ} {s s' : ω}

theorem run_bind {α β : Type} {x : StateT (List Effect) (StateM ω) α} {a : α}
    {log log' : List Effect} (h : (x.run log).run s = ((a, log'), s'))
    (f : α → StateT (List Effect) (StateM ω) β) :
    ((x >>= f).run log).run s = ((f a).run log').run s' := by
  rw [StateT.run_bind, StateT.run_bind, h]
  rfl

theorem run_noted {α : Type} {x : StateM ω α} {a : α} (h : x.run s = (a, s')) (e : Effect)
    (log : List Effect) : ((noted e x).run log).run s = ((a, log ++ [e]), s') := by
  have hmodify : (((modify (· ++ [e]) : StateT (List Effect) (StateM ω) PUnit).run log).run s) =
      ((⟨⟩, log ++ [e]), s) := rfl
  rw [noted, run_bind hmodify, StateT.run_monadLift, StateT.run_bind]
  exact congrArg (fun r : α × ω => ((r.1, log ++ [e]), r.2)) h

theorem exists_finds (w : Surroundings (StateM ω) σ) (host : Text) (s : ω) :
    ∃ ips looked s', w.Finds host s ips looked s' := by
  cases hip : IpAddr.parse? host with
  | some ip => exact ⟨_, _, _, .literal hip⟩
  | none =>
    by_cases hnul : '\x00' ∈ host
    · exact ⟨_, _, _, .unaskable hip hnul⟩
    · cases hlook : (w.look host).run s with
      | mk found s' =>
        cases found with
        | none => exact ⟨_, _, _, .unknown hip hnul hlook⟩
        | some ips => exact ⟨_, _, _, .found hip hnul hlook⟩

theorem run_addresses {host : Text} {ips : List IpAddr} {looked : List Effect}
    (h : w.Finds host s ips looked s') (log : List Effect) :
    ((w.traced.addresses host).run log).run s = ((ips, log ++ looked), s') := by
  have hask (hnul : '\x00' ∉ host) : ¬ host.contains '\x00' = true := by simpa using hnul
  cases h with
  | literal hip =>
    rw [List.append_nil, addresses, hip]
    rfl
  | unaskable hip hnul =>
    rw [List.append_nil, addresses, hip]
    simp only
    rw [if_pos (by simpa using hnul)]
    rfl
  | unknown hip hnul hlook =>
    rw [addresses, hip]
    simp only
    rw [if_neg (hask hnul), traced_look, run_bind (run_noted hlook _ log)]
    rfl
  | found hip hnul hlook =>
    rw [addresses, hip]
    simp only
    rw [if_neg (hask hnul), traced_look, run_bind (run_noted hlook _ log)]
    rfl

theorem refused_or_taken (w : Surroundings (StateM ω) σ) (port : UInt16) (ips : List IpAddr)
    (s : ω) :
    (∃ s', w.Refused (ips.map fun ip => ⟨ip, port⟩) s s') ∨
      ∃ before ip after socket s₁ s', ips = before ++ ip :: after ∧
        w.Refused (before.map fun ip => ⟨ip, port⟩) s s₁ ∧
        (w.bind ⟨ip, port⟩).run s₁ = (some socket, s') := by
  -- An attempt starts from the state that the one before it left, so the state is general.
  induction ips generalizing s with
  | nil => exact .inl ⟨s, .nil⟩
  | cons ip ips ih =>
    cases hbind : (w.bind ⟨ip, port⟩).run s with
    | mk bound s₁ =>
      cases bound with
      | some socket => exact .inr ⟨[], ip, ips, socket, s, s₁, rfl, .nil, hbind⟩
      | none =>
        obtain ⟨s', hall⟩ | ⟨before, ip', after, socket, s₂, s', rfl, hbefore, htaken⟩ := ih s₁
        · exact .inl ⟨s', .cons hbind hall⟩
        · exact .inr ⟨ip :: before, ip', after, socket, s₂, s', rfl, .cons hbind hbefore, htaken⟩

theorem run_bindFirst_append {es : List Endpoint} (h : w.Refused es s s') (rest : List Endpoint)
    (log : List Effect) : ((w.traced.bindFirst (es ++ rest)).run log).run s =
      ((w.traced.bindFirst rest).run (log ++ es.map .bind)).run s' := by
  induction h generalizing log with
  | nil => rw [List.nil_append, List.map_nil, List.append_nil]
  | @cons e es s s₁ s' hbind _ ih =>
    rw [List.cons_append, bindFirst, traced_bind, run_bind (run_noted hbind _ log)]
    simp only
    rw [ih, List.map_cons, List.append_assoc, List.singleton_append]

theorem run_bindFirst_of_refused {es : List Endpoint} (h : w.Refused es s s') (log : List Effect) :
    ((w.traced.bindFirst es).run log).run s = ((none, log ++ es.map .bind), s') := by
  have hrun := run_bindFirst_append h [] log
  rw [List.append_nil] at hrun
  rw [hrun]
  rfl

theorem run_bindFirst_of_taken {es rest : List Endpoint} {e : Endpoint} {socket : σ} {s₁ : ω}
    (h : w.Refused es s s₁) (hbind : (w.bind e).run s₁ = (some socket, s')) (log : List Effect) :
    ((w.traced.bindFirst (es ++ e :: rest)).run log).run s =
      ((some socket, log ++ (es ++ [e]).map .bind), s') := by
  rw [run_bindFirst_append h, bindFirst, traced_bind, run_bind (run_noted hbind _ _),
    List.map_append,
    ← List.append_assoc]
  rfl

variable {names : Text → List IpAddr} {p : Profile} {policy : Policy}

theorem exists_setsUp (w : Surroundings (StateM ω) σ) (names : Text → List IpAddr) (p : Profile)
    (policy : Policy) (s : ω) :
    ∃ result effects s', w.SetsUp names p policy s result effects s' := by
  cases hcreate : (w.create (Scenario.test p)).run s with
  | mk created s₁ =>
    cases created with
    | error e => exact ⟨_, _, _, .notCreated hcreate⟩
    | ok =>
      obtain ⟨ips, looked, s₂, hfinds⟩ := w.exists_finds p.bindHost s₁
      obtain ⟨s', hall⟩ | ⟨before, ip, after, socket, s₃, s₄, rfl, hbefore, htaken⟩ :=
        w.refused_or_taken p.port ips s₂
      · exact ⟨_, _, _, .notBound hcreate hfinds hall⟩
      · exact ⟨_, _, _, .ran hcreate hfinds hbefore htaken rfl⟩

theorem run_setUp_of_setsUp {result : Except SetupError Unit} {effects : List Effect}
    (h : w.SetsUp names p policy s result effects s') :
    ((w.traced.setUp names p policy).run []).run s = ((result, effects), s') := by
  rw [setUp]
  cases h with
  | notCreated hcreate =>
    rw [traced_create, run_bind (run_noted hcreate _ [])]
    rfl
  | notBound hcreate hfinds hall =>
    rw [traced_create, run_bind (run_noted hcreate _ [])]
    simp only
    rw [run_bind (run_addresses hfinds _), run_bind (run_bindFirst_of_refused hall _), List.map_map]
    rfl
  | ran hcreate hfinds hbefore htaken hrun =>
    rw [traced_create, run_bind (run_noted hcreate _ [])]
    simp only
    rw [run_bind (run_addresses hfinds _), List.map_append, List.map_cons,
      run_bind (run_bindFirst_of_taken hbefore htaken _)]
    simp only
    rw [traced_run, run_noted hrun]
    simp [Effect.tries, Function.comp_def]

theorem run_setUp_iff {result : Except SetupError Unit} {effects : List Effect} :
    ((w.traced.setUp names p policy).run []).run s = ((result, effects), s') ↔
      w.SetsUp names p policy s result effects s' := by
  refine ⟨fun h => ?_, run_setUp_of_setsUp⟩
  obtain ⟨result', effects', s₁, hsetsUp⟩ := w.exists_setsUp names p policy s
  have he := h.symm.trans (run_setUp_of_setsUp hsetsUp)
  cases he
  exact hsetsUp

theorem Finds.created {host : Text} {ips : List IpAddr} {looked : List Effect}
    (h : w.Finds host s ips looked s') : looked.filterMap Effect.created? = [] := by
  cases h <;> rfl

theorem Finds.bound {host : Text} {ips : List IpAddr} {looked : List Effect}
    (h : w.Finds host s ips looked s') : looked.filterMap Effect.bound? = [] := by
  cases h <;> rfl

theorem SetsUp.created {result : Except SetupError Unit} {effects : List Effect}
    (h : w.SetsUp names p policy s result effects s') :
    effects.filterMap Effect.created? = [Scenario.test p] := by
  cases h with
  | notCreated => rfl
  | notBound _ hfinds => simp [Effect.created?, hfinds.created, Effect.created_tries]
  | ran _ hfinds => simp [Effect.created?, hfinds.created, Effect.created_tries]

end

section
variable {m : Type → Type} [Monad m] [LawfulMonad m] {α β : Type}

/-- One program does what the other does, but for the list. -/
def Erases (x : StateT (List Effect) m α) (y : m α) : Prop := ∀ log, Prod.fst <$> x.run log = y

theorem erases_pure (a : α) : Erases (pure a : StateT (List Effect) m α) (pure a) := by
  intro log
  rw [StateT.run_pure, map_pure]

theorem Erases.bind {x : StateT (List Effect) m α} {y : m α} {f : α → StateT (List Effect) m β}
    {g : α → m β} (hx : Erases x y) (hf : ∀ a, Erases (f a) (g a)) :
    Erases (x >>= f) (y >>= g) := by
  intro log
  calc Prod.fst <$> (x >>= f).run log
      = x.run log >>= fun r => Prod.fst <$> (f r.1).run r.2 := by rw [StateT.run_bind, map_bind]
    _ = x.run log >>= fun r => g r.1 := bind_congr fun r => hf r.1 r.2
    _ = (Prod.fst <$> x.run log) >>= g := (bind_map_left _ _ _).symm
    _ = y >>= g := by rw [hx log]

theorem erases_noted (e : Effect) (x : m α) : Erases (noted e x) x := by
  intro log
  simp [noted]

variable (w : Surroundings m σ)

theorem erases_addresses (host : Text) : Erases (w.traced.addresses host) (w.addresses host) := by
  rw [addresses, addresses]
  cases IpAddr.parse? host with
  | some ip => exact erases_pure [ip]
  | none =>
    simp only
    split
    · exact erases_pure []
    · exact (erases_noted _ _).bind fun found => erases_pure _

theorem erases_bindFirst (es : List Endpoint) :
    Erases (w.traced.bindFirst es) (w.bindFirst es) := by
  induction es with
  | nil => exact erases_pure none
  | cons e es ih =>
    refine (erases_noted _ _).bind fun bound => ?_
    cases bound with
    | some socket => exact erases_pure (some socket)
    | none => exact ih

theorem erases_setUp (names : Text → List IpAddr) (p : Profile) (policy : Policy) :
    Erases (w.traced.setUp names p policy) (w.setUp names p policy) := by
  refine (erases_noted _ _).bind fun created => ?_
  cases created with
  | error e => exact erases_pure (Except.error e)
  | ok =>
    refine (w.erases_addresses p.bindHost).bind fun ips => ?_
    refine (w.erases_bindFirst _).bind fun bound => ?_
    cases bound with
    | none => exact erases_pure (Except.error (SetupError.bind p.port))
    | some socket => exact erases_noted _ _

end

section
variable {ρ : Type} {names : Text → List IpAddr} {canBind : Endpoint → Bool} {h : Harness ρ}

/-- Surroundings whose names and endpoints stay as they are. They keep what a run records. -/
def ofHarness (names : Text → List IpAddr) (canBind : Endpoint → Bool) (h : Harness ρ) :
    Surroundings (StateM (Option ρ)) Unit where
  create t := return h.create t
  look host := return some (names host)
  bind e := return if canBind e then some () else none
  run _ s := do
    set (some (h.run s).1)
    return (h.run s).2

theorem Finds.eq_addressesOf {host : Text} {ips : List IpAddr} {looked : List Effect}
    {r r' : Option ρ} (hfinds : (ofHarness names canBind h).Finds host r ips looked r') :
    ips = addressesOf names host ∧ r' = r := by
  rw [addressesOf]
  cases hfinds with
  | literal hip =>
    rw [hip]
    exact ⟨rfl, rfl⟩
  | unaskable hip hnul =>
    rw [hip]
    exact ⟨(if_pos (by simpa using hnul)).symm, rfl⟩
  | unknown _ _ hlook => cases hlook
  | found hip hnul hlook =>
    cases hlook
    rw [hip]
    exact ⟨(if_neg (by simpa using hnul)).symm, rfl⟩

theorem Refused.eq_false {es : List Endpoint} {r r' : Option ρ}
    (hrefused : (ofHarness names canBind h).Refused es r r') :
    (∀ e ∈ es, canBind e = false) ∧ r' = r := by
  induction hrefused with
  | nil => exact ⟨List.forall_mem_nil _, rfl⟩
  | cons hbind _ ih =>
    obtain ⟨hnone, rfl⟩ := Prod.mk.inj hbind
    exact ⟨List.forall_mem_cons.2 ⟨by simpa using hnone, ih.1⟩, ih.2⟩

theorem SetsUp.eq_run {r : Option ρ} {p : Profile} {policy : Policy}
    {result : Except SetupError Unit} {effects : List Effect}
    (hsetsUp : (ofHarness names canBind h).SetsUp names p policy none result effects r) :
    Scenario.run names canBind h p policy =
      ⟨effects.filterMap Effect.created?, effects.filterMap Effect.bound?, r, result⟩ := by
  have hcreated := hsetsUp.created
  cases hsetsUp with
  | notCreated hcreate =>
    obtain ⟨hc, rfl⟩ := Prod.mk.inj hcreate
    rw [Scenario.run, hc]
    rfl
  | notBound hcreate hfinds hall =>
    obtain ⟨hc, rfl⟩ := Prod.mk.inj hcreate
    obtain ⟨rfl, rfl⟩ := hfinds.eq_addressesOf
    obtain ⟨hrefused, rfl⟩ := hall.eq_false
    have htry := Scenario.tryBind_append hrefused []
    rw [List.append_nil] at htry
    rw [Scenario.run, hc, Scenario.endpoints, htry, hcreated]
    simp [List.filterMap_cons, Effect.bound?, hfinds.bound, Effect.bound_tries, Scenario.tryBind]
  | @ran before after ip looked _ _ _ _ _ _ _ hcreate hfinds hbefore htaken hrun =>
    obtain ⟨hc, rfl⟩ := Prod.mk.inj hcreate
    obtain ⟨hips, rfl⟩ := hfinds.eq_addressesOf
    obtain ⟨hrefused, rfl⟩ := hbefore.eq_false
    obtain ⟨hsome, rfl⟩ := Prod.mk.inj htaken
    obtain ⟨rfl, rfl⟩ := Prod.mk.inj hrun
    have htry := Scenario.tryBind_append hrefused
    rw [Scenario.run, hc, Scenario.endpoints, ← hips, List.map_append, List.map_cons, htry,
      hcreated]
    have he : canBind ⟨ip, p.port⟩ = true := by simpa using hsome
    simp [List.filterMap_cons, Effect.bound?, hfinds.bound, Effect.bound_tries, Scenario.tryBind,
      he]

end

/-- A test is set up in stages, whatever the surroundings answer: it is created, once and with its
name, its protocol and the parameters of its account; the host to bind is looked up, unless it is a
literal; the addresses are tried in order up to the first that can be bound; and what is run there has
the profile's domain and no bindings yet. A stage that fails gives the result, and nothing is asked for
after it. A pure run is the same with surroundings that do not change. -/
theorem setUp_in_order (names : Text → List IpAddr) (p : Profile) (policy : Policy) :
    Scenario.test p = ⟨p.testName, p.protocol, [("account".toList, .text p.account),
      ("password".toList, .text p.password), ("port".toList, .number p.port.toUInt32)]⟩ ∧
    (Scenario.session names p policy).bindings = .empty p.registrarDomain ∧
    (∀ {ω σ : Type} (w : Surroundings (StateM ω) σ) (s : ω),
      w.setUp names p policy = Prod.fst <$> (w.traced.setUp names p policy).run [] ∧
      ∀ result effects s',
        (((w.traced.setUp names p policy).run []).run s = ((result, effects), s') ↔
          w.SetsUp names p policy s result effects s') ∧
        (w.SetsUp names p policy s result effects s' →
          effects.filterMap Effect.created? = [Scenario.test p])) ∧
    ∀ {ρ : Type} (canBind : Endpoint → Bool) (h : Harness ρ), ∃ result effects r,
      (ofHarness names canBind h).SetsUp names p policy none result effects r ∧
      Scenario.run names canBind h p policy =
        ⟨effects.filterMap Effect.created?, effects.filterMap Effect.bound?, r, result⟩ := by
  refine ⟨rfl, rfl, fun w s => ⟨?_, ?_⟩, fun canBind h => ?_⟩
  · exact (w.erases_setUp names p policy []).symm
  · exact fun _ _ _ => ⟨run_setUp_iff, SetsUp.created⟩
  · obtain ⟨result, effects, r, hsetsUp⟩ :=
      (ofHarness names canBind h).exists_setsUp names p policy none
    exact ⟨result, effects, r, hsetsUp, hsetsUp.eq_run⟩

def freeLater : Surroundings (StateM Nat) Unit where
  create _ := return .ok ()
  look _ := return some [.v4 127 0 0 1, .v4 127 0 0 1]
  bind _ := modifyGet fun n => (if n = 0 then none else some (), n + 1)
  run _ _ := return .error (.harness "stopped".toList)

theorem setUp_in_order_freeLater :
    let p : Profile := { Profile.default with bindHost := "localhost".toList }
    ((freeLater.traced.setUp (fun _ => []) p .unrestricted).run []).run 0 =
      ((.error (.harness "stopped".toList),
        [.create (Scenario.test p), .look "localhost".toList, .bind ⟨.v4 127 0 0 1, 9090⟩,
          .bind ⟨.v4 127 0 0 1, 9090⟩,
          .run (Scenario.session (fun _ => []) p .unrestricted)]), 2) := by
  intro p
  have hfinds : freeLater.Finds p.bindHost 0 [.v4 127 0 0 1, .v4 127 0 0 1] [.look p.bindHost] 0 :=
    .found (by decide) (by decide) rfl
  have hrefused : freeLater.Refused ([.v4 127 0 0 1].map fun ip => ⟨ip, p.port⟩) 0 1 :=
    .cons rfl .nil
  exact (((setUp_in_order (fun _ => []) p .unrestricted).2.2.1 freeLater 0).2 _ _ _).1.2
    (.ran rfl hfinds hrefused rfl rfl)

end Surroundings
end SipTestbed
