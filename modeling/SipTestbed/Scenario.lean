import SipTestbed.Profile
import SipTestbed.Session

/-! Setting up a test: a harness creates it, the registrar is bound, the harness runs it. Each stage
starts only after the one before it went well. -/
namespace SipTestbed

structure Test where
  name : Text
  protocol : Text
  params : BusParams
  deriving DecidableEq, Repr

/-- The owner of the service under test. Running one leaves a record of what was seen. -/
structure Harness (ρ : Type) where
  create : Test → Except SetupError Unit
  run : Session → ρ × Except SetupError Unit

/-- Everything that setting up a test brought about. -/
structure Run (ρ : Type) where
  created : List Test
  bound : List Endpoint
  ran : Option ρ
  result : Except SetupError Unit

namespace Scenario

def tryBind (canBind : Endpoint → Bool) : List Endpoint → List Endpoint × Bool
  | [] => ([], false)
  | e :: es =>
    if canBind e then ([e], true)
    else (e :: (tryBind canBind es).1, (tryBind canBind es).2)

def endpoints (names : Text → List IpAddr) (p : Profile) : List Endpoint :=
  (addressesOf names p.bindHost).map fun ip => ⟨ip, p.port⟩

def test (p : Profile) : Test := ⟨p.testName, p.protocol, p.busParams⟩

def session (names : Text → List IpAddr) (p : Profile) (policy : Policy) : Session :=
  .start names (.ofDomain p.registrarDomain p.defaultExpirySecs.toNat policy)

variable {ρ : Type}

def run (names : Text → List IpAddr) (canBind : Endpoint → Bool) (h : Harness ρ) (p : Profile)
    (policy : Policy) : Run ρ :=
  match h.create (test p) with
  | .error e => ⟨[test p], [], none, .error e⟩
  | .ok () =>
    match tryBind canBind (endpoints names p) with
    | (bound, false) => ⟨[test p], bound, none, .error (.bind p.port)⟩
    | (bound, true) =>
      let (seen, result) := h.run (session names p policy)
      ⟨[test p], bound, some seen, result⟩

def runDefault (names : Text → List IpAddr) (canBind : Endpoint → Bool) (h : Harness ρ)
    (judge : List Call → Call → Verdict) : Run ρ :=
  run names canBind h .default (.ask judge)

/-- A harness that lets actions happen until it is interrupted. -/
def standalone (as : List (Fresh × Action)) : Harness (List (Report × Session)) where
  create _ := .ok ()
  run s := (s.play as, .ok ())

end Scenario

/-- What setting up a test asks for: to create it, to look up a host name, to bind an endpoint, and
to run a session at what was bound. -/
structure Surroundings (m : Type → Type) (σ : Type) where
  create : Test → m (Except SetupError Unit)
  look : Text → m (Option (List IpAddr))
  bind : Endpoint → m (Option σ)
  run : σ → Session → m (Except SetupError Unit)

namespace Surroundings

variable {m : Type → Type} [Monad m] {σ : Type}

def addresses (w : Surroundings m σ) (host : Text) : m (List IpAddr) := do
  match IpAddr.parse? host with
  | some ip => return [ip]
  | none =>
    if host.contains '\x00' then return []
    else return (← w.look host).getD []

def bindFirst (w : Surroundings m σ) : List Endpoint → m (Option σ)
  | [] => return none
  | e :: es => do
    match ← w.bind e with
    | some socket => return some socket
    | none => bindFirst w es

def setUp (w : Surroundings m σ) (names : Text → List IpAddr) (p : Profile) (policy : Policy) :
    m (Except SetupError Unit) := do
  match ← w.create (Scenario.test p) with
  | .error e => return .error e
  | .ok () =>
    let ips ← w.addresses p.bindHost
    match ← w.bindFirst (ips.map fun ip => ⟨ip, p.port⟩) with
    | none => return .error (.bind p.port)
    | some socket => w.run socket (Scenario.session names p policy)

end Surroundings
end SipTestbed
