import SipTestbed.Gate.Basic

/-! A gate over time: datagrams that arrive at its socket, direct questions to its bindings, and
changes of its surroundings. -/
namespace SipTestbed

def maxDatagram : Nat := 65535

/-- What the receive loop reads datagrams into, one after the other. -/
structure Buffer where
  octets : Utf8.Octets
  length_octets : octets.length = maxDatagram

namespace Buffer

def blank : Buffer := ⟨List.replicate maxDatagram 0, List.length_replicate⟩

def fill (data : Utf8.Octets) : Nat := min data.length maxDatagram

/-- Write a datagram over the front. What earlier ones left behind it stays. -/
def write (data : Utf8.Octets) (b : Buffer) : Buffer where
  octets := data.take maxDatagram ++ b.octets.drop (fill data)
  length_octets := by
    rw [List.length_append, List.length_take, List.length_drop, b.length_octets, fill]
    omega

theorem take_write (data : Utf8.Octets) (b : Buffer) :
    (b.write data).octets.take (fill data) = data.take maxDatagram := by
  have hfill : (data.take maxDatagram).length = fill data := by
    rw [List.length_take, fill, Nat.min_comm]
  exact List.take_left' hfill

end Buffer

inductive Action where
  /-- A datagram at the socket, served as long as the receive loop runs. -/
  | arrive (data : Utf8.Octets) (src : Endpoint)
  /-- Reading the socket fails, which ends the receive loop. -/
  | receiveError
  | handle (data : Utf8.Octets) (src : Endpoint)
  | register (call : Call)
  | bindings (op : Bindings.Op)
  | domain
  /-- Time passes, in nanoseconds. -/
  | advance (time : Nat)
  | network (up : Bool)

inductive Action.Result where
  | done
  | fault (f : Fault)
  | bindings (a : Bindings.Answer)
  | domain (t : Text)

def Action.Result.ofExcept : Except Fault Unit → Action.Result
  | .ok () => .done
  | .error f => .fault f

structure Report where
  result : Action.Result
  sent : List Attempt
  asked : List Call

structure Session where
  world : World
  gate : Gate
  listening : Bool
  buffer : Buffer

namespace Session

def start (names : Text → List IpAddr) (gate : Gate) : Session :=
  ⟨⟨0, true, names⟩, gate, true, .blank⟩

def bindings (s : Session) : Bindings := s.gate.bindings

def withBindings (bs : Bindings) (s : Session) : Session :=
  { s with gate := s.gate.withBindings bs }

def ofStep (result : Action.Result) (st : Gate.Step) (s : Session) : Report × Session :=
  (⟨result, st.sent, st.asked⟩, { s with gate := st.gate })

def quiet (result : Action.Result) (s : Session) : Report × Session := (⟨result, [], []⟩, s)

def act (fresh : Fresh) (a : Action) (s : Session) : Report × Session :=
  match a with
  | .arrive data src =>
    if s.listening then
      let s := { s with buffer := s.buffer.write data }
      s.ofStep .done
        (s.gate.handle s.world fresh (s.buffer.octets.take (Buffer.fill data)) src)
    else s.quiet .done
  | .receiveError => quiet .done { s with listening := false }
  | .handle data src => s.ofStep .done (s.gate.handle s.world fresh data src)
  | .register call =>
    let (r, st) := s.gate.register s.world fresh call
    s.ofStep (Action.Result.ofExcept r) st
  | .bindings op =>
    let (a, bs) := s.bindings.perform s.world.now op
    quiet (.bindings a) (s.withBindings bs)
  | .domain => s.quiet (.domain s.bindings.domain)
  | .advance time => quiet .done { s with world := { s.world with now := s.world.now + time } }
  | .network up => quiet .done { s with world := { s.world with networkUp := up } }

def play : List (Fresh × Action) → Session → List (Report × Session)
  | [], _ => []
  | (fresh, a) :: as, s => s.act fresh a :: play as (s.act fresh a).2

def after (as : List (Fresh × Action)) (s : Session) : Session :=
  as.foldl (fun s a => (s.act a.1 a.2).2) s

end Session
end SipTestbed
