import SipTestbed.BusParams
import SipTestbed.Text.Utf8

/-! The settings of a test: the account under test, where the registrar listens, and for which
domain. They are read from a JSON file, which may leave out any of them. -/
namespace SipTestbed

def configVariable : Text := "SIP_FIXTURE_CONFIG".toList

structure Profile where
  account : Text
  password : Text
  port : UInt16
  bindHost : Text
  registrarDomain : Text
  defaultExpirySecs : UInt64
  testName : Text
  protocol : Text
  deriving DecidableEq, Repr

inductive SetupError where
  | bind (port : UInt16)
  | harness (reason : Text)
  | unreadableConfig
  | malformedConfig
  | io
  deriving DecidableEq, Repr

def SetupError.message? : SetupError → Option Text
  | .harness r => some ("harness error: ".toList ++ r)
  | .unreadableConfig => some "config error: Failed to read config file".toList
  | .malformedConfig => some "config error: Failed to parse config file".toList
  | _ => none

namespace Profile

def default : Profile where
  account := "sip:testacc@127.0.0.1".toList
  password := "testpwd".toList
  port := 9090
  bindHost := "0.0.0.0".toList
  registrarDomain := "127.0.0.1".toList
  defaultExpirySecs := 3600
  testName := "sofiasip".toList
  protocol := "sip".toList

inductive Field where
  | account
  | password
  | port
  | bindHost
  | registrarDomain
  | defaultExpirySecs
  | testName
  | protocol
  deriving DecidableEq, Repr

namespace Field

def all : List Field :=
  [.account, .password, .port, .bindHost, .registrarDomain, .defaultExpirySecs, .testName,
    .protocol]

def name : Field → Text
  | .account => "account".toList
  | .password => "password".toList
  | .port => "port".toList
  | .bindHost => "bind_host".toList
  | .registrarDomain => "registrar_domain".toList
  | .defaultExpirySecs => "default_expiry_secs".toList
  | .testName => "test_name".toList
  | .protocol => "protocol".toList

def ofName? (t : Text) : Option Field := all.find? fun f => f.name == t

def assign? (f : Field) (v : Json) (p : Profile) : Option Profile :=
  match f with
  | .account => v.text?.map fun t => { p with account := t }
  | .password => v.text?.map fun t => { p with password := t }
  | .port => (v.nat? 65535).map fun n => { p with port := UInt16.ofNat n }
  | .bindHost => v.text?.map fun t => { p with bindHost := t }
  | .registrarDomain => v.text?.map fun t => { p with registrarDomain := t }
  | .defaultExpirySecs => (v.nat? 18446744073709551615).map fun n =>
    { p with defaultExpirySecs := UInt64.ofNat n }
  | .testName => v.text?.map fun t => { p with testName := t }
  | .protocol => v.text?.map fun t => { p with protocol := t }

def toJson (f : Field) (p : Profile) : Json :=
  match f with
  | .account => .ofText p.account
  | .password => .ofText p.password
  | .port => .ofNat p.port.toNat
  | .bindHost => .ofText p.bindHost
  | .registrarDomain => .ofText p.registrarDomain
  | .defaultExpirySecs => .ofNat p.defaultExpirySecs.toNat
  | .testName => .ofText p.testName
  | .protocol => .ofText p.protocol

end Field

/-- Take one member of an object, with the fields seen so far. An unknown name is passed over, and
a known one may come once only. -/
def takeMember? (st : List Field × Profile) (m : Json.Quoted × Json) :
    Option (List Field × Profile) :=
  match m.1.decode? with
  | none => none
  | some key =>
    match Field.ofName? key with
    | none => some st
    | some f => if f ∈ st.1 then none else (f.assign? m.2 st.2).map fun p => (f :: st.1, p)

def takeElements? : List Field → List Json → Profile → Option Profile
  | _, [], p => some p
  | [], _ :: _, _ => none
  | f :: fs, v :: vs, p => (f.assign? v p).bind (takeElements? fs vs)

def ofJson? : Json → Option Profile
  | .object ms => (ms.foldlM takeMember? ([], default)).map Prod.snd
  | .array vs => takeElements? Field.all vs default
  | _ => none

def toJson (p : Profile) : Json := .ofMembers (Field.all.map fun f => (f.name, f.toJson p))

def render (p : Profile) : Text := p.toJson.render

inductive Source where
  | missing
  | unreadable
  | content (data : Utf8.Octets)

def load : Source → Except SetupError Profile
  | .missing => .ok default
  | .unreadable => .error .unreadableConfig
  | .content data =>
    match Utf8.decode? data with
    | none => .error .unreadableConfig
    | some t =>
      match (Json.parse? t).bind ofJson? with
      | some p => .ok p
      | none => .error .malformedConfig

def busParams (p : Profile) : BusParams :=
  [("account".toList, .text p.account), ("password".toList, .text p.password),
    ("port".toList, .number p.port.toUInt32)]

end Profile
end SipTestbed
