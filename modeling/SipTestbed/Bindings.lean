import SipTestbed.Uri

/-! The bindings of one domain: where each user is reached, and until when. A binding whose time
is over stays in the list until the next access drops it, and no access ever shows it. -/
namespace SipTestbed

def second : Nat := 1000000000

/-- The clock cannot tell a moment from here on. -/
def clockLimit : Nat := 9223372036854775808 * second

structure Binding where
  contact : Uri
  /-- In nanoseconds of the clock; the binding is live before this moment. -/
  deadline : Nat
  deriving DecidableEq, Repr

structure Registration where
  /-- Whole seconds left. -/
  seconds : Nat
  contact : Uri
  deriving DecidableEq, Repr

def Binding.registration (now : Nat) (b : Binding) : Registration :=
  ⟨(b.deadline - now) / second, b.contact⟩

inductive BindingError where
  | refused (code : UInt16)
  | unknownDomain (host : Text)
  | noSuchUser (user : Text)
  deriving DecidableEq, Repr

namespace BindingError

def message : BindingError → Text
  | .refused c => "registration refused with status ".toList ++ Decimal.write c.toNat
  | .unknownDomain h => "unknown domain: ".toList ++ h
  | .noSuchUser u => "no such user: ".toList ++ u

def status : BindingError → UInt16
  | .refused c => c
  | .unknownDomain _ => 404
  | .noSuchUser _ => 404

end BindingError

structure Bindings where
  domain : Text
  entries : List (Text × Binding)
  deriving DecidableEq, Repr

namespace Bindings

def empty (domain : Text) : Bindings := ⟨domain, []⟩

def serves (bs : Bindings) (u : Uri) : Bool := Text.sameWord u.host bs.domain

def prune (now : Nat) (bs : Bindings) : Bindings :=
  { bs with entries := bs.entries.filter fun e => now < e.2.deadline }

def find? (user : Text) (bs : Bindings) : Option Binding :=
  (bs.entries.find? fun e => e.1 == user).map Prod.snd

def live? (now : Nat) (user : Text) (bs : Bindings) : Option Binding := (bs.prune now).find? user

def erase (user : Text) (bs : Bindings) : Bindings :=
  { bs with entries := bs.entries.filter fun e => e.1 != user }

def insert (user : Text) (b : Binding) (bs : Bindings) : Bindings :=
  { bs with entries := (user, b) :: (bs.erase user).entries }

/-- Bind a user to a contact in place of any earlier one, for a time in nanoseconds. Both the
requested domain and the user's have to be the one that is served. -/
def register (now : Nat) (domain logical contact : Uri) (expiry : Nat) (bs : Bindings) :
    Except BindingError Registration × Bindings :=
  if !(bs.serves domain && bs.serves logical) then (.error (.refused 404), bs)
  else if clockLimit ≤ now + expiry then (.error (.refused 400), bs)
  else
    let b : Binding := ⟨contact, now + expiry⟩
    (.ok (b.registration now), (bs.prune now).insert logical.userKey b)

def unregister (now : Nat) (logical : Uri) (bs : Bindings) :
    Except BindingError Registration × Bindings :=
  match (bs.prune now).find? logical.userKey with
  | some b => (.ok ⟨0, b.contact⟩, (bs.prune now).erase logical.userKey)
  | none => (.error (.noSuchUser logical.userKey), bs.prune now)

def lookup (now : Nat) (user : Uri) (bs : Bindings) :
    Except BindingError Registration × Bindings :=
  if !bs.serves user then (.error (.unknownDomain user.host), bs)
  else
    match (bs.prune now).find? user.userKey with
    | some b => (.ok (b.registration now), bs.prune now)
    | none => (.error (.noSuchUser user.userKey), bs.prune now)

def count (now : Nat) (bs : Bindings) : Nat × Bindings :=
  ((bs.prune now).entries.length, bs.prune now)

inductive Op where
  | register (domain logical contact : Uri) (expiry : Nat)
  | unregister (logical : Uri)
  | lookup (user : Uri)
  | address (user : Uri)
  | count
  | isEmpty
  deriving DecidableEq, Repr

inductive Answer where
  | registration (r : Registration)
  | address (u : Uri)
  | count (n : Nat)
  | isEmpty (b : Bool)
  | refusal (e : BindingError)
  deriving DecidableEq, Repr

def Answer.ofResult : Except BindingError Registration → Answer
  | .ok r => .registration r
  | .error e => .refusal e

def Answer.ofAddress : Except BindingError Registration → Answer
  | .ok r => .address r.contact
  | .error e => .refusal e

def perform (now : Nat) (op : Op) (bs : Bindings) : Answer × Bindings :=
  match op with
  | .register d l c e => (bs.register now d l c e).map .ofResult id
  | .unregister l => (bs.unregister now l).map .ofResult id
  | .lookup u => (bs.lookup now u).map .ofResult id
  | .address u => (bs.lookup now u).map .ofAddress id
  | .count => (bs.count now).map .count id
  | .isEmpty => (bs.count now).map (fun n => .isEmpty (n == 0)) id

end Bindings
end SipTestbed
