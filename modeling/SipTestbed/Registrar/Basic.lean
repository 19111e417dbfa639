import SipTestbed.Registrar.Intent
import SipTestbed.Registrar.Reply

/-! A registrar grants every registration that is well-formed and for its domain. A 200 tells the
sender the contact and the time left. -/
namespace SipTestbed

structure Registrar where
  /-- In seconds, for a registration that names no time. -/
  defaultExpiry : Nat
  bindings : Bindings

namespace Registrar

structure Outcome where
  result : Except Fault Unit
  sent : List Attempt
  bindings : Bindings

def Outcome.ofDelivery (bs : Bindings) (d : Delivery) : Outcome := ⟨d.result, d.sent, bs⟩

def host (r : Registrar) : Text := r.bindings.domain

def confirmation (fresh : Fresh) (req : Request) (reg : Registration) : Response :=
  ((req.reply fresh.tag 200).addHeader "contact".toList
    (['<'] ++ reg.contact.render ++ ['>'])).addHeader "expires".toList (Decimal.write reg.seconds)

def confirm (w : World) (fresh : Fresh) (req : Request) :
    Except BindingError Registration × Bindings → Outcome
  | (.ok reg, bs) => .ofDelivery bs ((confirmation fresh req reg).deliver w)
  | (.error e, bs) => ⟨.error (.binding e), [], bs⟩

/-- An Expires header has to be a number even where its value does not matter. -/
def checkExpires (req : Request) : Except Fault Unit :=
  match req.headers.get? "expires".toList with
  | none => .ok ()
  | some v => if (Decimal.readU64? (Text.trim v)).isSome then .ok () else .error (.invalidExpires v)

def unregister (w : World) (fresh : Fresh) (req : Request) (user : Uri) (r : Registrar) : Outcome :=
  match checkExpires req with
  | .error f => ⟨.error f, [], r.bindings⟩
  | .ok () => confirm w fresh req (r.bindings.unregister w.now user)

def register (w : World) (fresh : Fresh) (req : Request) (port : UInt16) (r : Registrar) :
    Outcome :=
  match Intent.ofRequest r.defaultExpiry port req with
  | .error f => ⟨.error f, [], r.bindings⟩
  | .ok (user, .remove) => r.unregister w fresh req user
  | .ok (user, .query) => confirm w fresh req (r.bindings.lookup w.now user)
  | .ok (user, .bind domain contact secs) =>
    confirm w fresh req (r.bindings.register w.now domain user contact (secs * second))

def challenge (fresh : Fresh) (realm : Text) : Text :=
  "Digest nonce=\"".toList ++ fresh.nonce.digits ++ "\",opaque=\"".toList ++ fresh.echo.digits ++
    "\",qop=\"auth\",algorithm=\"MD5\",realm=\"".toList ++ realm ++ ['"']

def refuse (w : World) (fresh : Fresh) (req : Request) (r : Registrar) : Outcome :=
  .ofDelivery r.bindings
    (((req.reply fresh.tag 401).addHeader "www-authenticate".toList
      (challenge fresh r.host)).deliver w)

end Registrar
end SipTestbed
