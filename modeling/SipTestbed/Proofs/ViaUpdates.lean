import SipTestbed.Proofs.ViaText

/-! Recording a source in a Via. The first parameter of either name gets its value where it stands,
or is added at the end, and no other is touched, so that the record is read back from the printed
Via whatever parameters there were. -/
namespace SipTestbed

namespace Params

variable {ps : Params} {n m x y : Text} {p : Param} {i : Nat}

/-- Where the first parameter of a name stands. -/
def index? (name : Text) (ps : Params) : Option Nat :=
  ps.findIdx? fun p => Text.sameWord p.1 name

theorem index?_cons (n : Text) (p : Param) (ps : Params) : index? n (p :: ps) =
    if Text.sameWord p.1 n then some 0 else (index? n ps).map (· + 1) := by
  rw [index?, List.findIdx?_cons]
  rfl

theorem getElem?_set (h : ps[i]? = some p) :
    (Params.set n x ps)[i]? = some (if index? n ps = some i then (p.1, some x) else p) := by
  induction ps generalizing i with
  | nil => cases h
  | cons q qs ih =>
    rw [Params.set, index?_cons]
    by_cases hq : Text.sameWord q.1 n = true
    · rw [if_pos hq, if_pos hq]
      cases i with
      | zero =>
        obtain rfl := Option.some.inj h
        rfl
      | succ i => simpa using h
    · rw [if_neg hq, if_neg hq]
      cases i with
      | zero => simpa using h
      | succ i =>
        rw [List.getElem?_cons_succ] at h ⊢
        rw [ih h]
        simp

theorem length_set (n x : Text) (ps : Params) :
    (Params.set n x ps).length = ps.length + if (index? n ps).isSome then 0 else 1 := by
  induction ps with
  | nil => rfl
  | cons p ps ih =>
    rw [Params.set, index?_cons]
    split
    · simp
    · rw [List.length_cons, ih, List.length_cons, Option.isSome_map]
      omega

theorem index?_set_of_ne (hnm : Text.sameWord n m = false) (ps : Params) :
    index? m (Params.set n x ps) = index? m ps := by
  induction ps with
  | nil => simp [Params.set, index?, hnm]
  | cons p ps ih =>
    rw [Params.set]
    split
    · simp only [index?_cons]
    · rw [index?_cons, index?_cons, ih]

theorem sameWord_of_index? (hi : index? n ps = some i) (h : ps[i]? = some p) :
    Text.sameWord p.1 n = true := by
  obtain ⟨hlt, hp, -⟩ := List.findIdx?_eq_some_iff_getElem.1 hi
  rw [List.getElem?_eq_getElem hlt, Option.some.injEq] at h
  exact h ▸ hp

theorem index?_ne (hnm : Text.sameWord n m = false) (h : ps[i]? = some p)
    (hi : index? n ps = some i) : index? m ps ≠ some i := by
  intro hj
  have hn := sameWord_of_index? hi h
  have hm := sameWord_of_index? hj h
  rw [Text.sameWord_trans hn] at hm
  rw [hnm] at hm
  cases hm

theorem getElem?_set_set (hnm : Text.sameWord n m = false) (h : ps[i]? = some p) :
    (Params.set m y (Params.set n x ps))[i]? =
      some (if index? n ps = some i then (p.1, some x)
        else if index? m ps = some i then (p.1, some y) else p) := by
  rw [getElem?_set (getElem?_set h), index?_set_of_ne hnm]
  by_cases hn : index? n ps = some i
  · rw [if_pos hn, if_pos hn, if_neg (index?_ne hnm h hn)]
  · rw [if_neg hn, if_neg hn]

theorem length_set_set (hnm : Text.sameWord n m = false) (x y : Text) (ps : Params) :
    (Params.set m y (Params.set n x ps)).length =
      ps.length + (if (index? n ps).isSome then 0 else 1) +
        if (index? m ps).isSome then 0 else 1 := by
  rw [length_set, length_set, index?_set_of_ne hnm]

theorem set_eq_self (h : ps.get? n = some (some x)) : Params.set n x ps = ps := by
  induction ps with
  | nil => cases h
  | cons p ps ih =>
    rw [get?, List.find?_cons] at h
    rw [Params.set]
    cases hp : Text.sameWord p.1 n with
    | true =>
      rw [hp] at h
      obtain ⟨k, v⟩ := p
      obtain rfl : v = some x := Option.some.inj h
      rfl
    | false =>
      rw [hp] at h
      rw [if_neg Bool.false_ne_true, ih h]

end Params

namespace Via

/-- The parameter at a place, once the first of either name has taken its value. -/
def recordAt (ip : IpAddr) (port : UInt16) (ps : Params) (i : Nat) (p : Param) : Param :=
  if Params.index? "received".toList ps = some i then (p.1, some ip.render)
  else if Params.index? "rport".toList ps = some i then (p.1, some (Decimal.write port.toNat))
  else p

/-- A Via is another one with a source recorded. -/
structure Records (ip : IpAddr) (port : UInt16) (v w : Via) : Prop where
  received : w.received = some ip.render
  rport : w.rport = .known port
  transport : w.transport = v.transport
  sentBy : w.sentBy = v.sentBy
  /-- Every parameter stands where it stood, and is as it was unless it is the first of its name. -/
  entry : ∀ i p, v.params[i]? = some p → w.params[i]? = some (recordAt ip port v.params i p)
  length : w.params.length = v.params.length +
    (if (Params.index? "received".toList v.params).isSome then 0 else 1) +
      if (Params.index? "rport".toList v.params).isSome then 0 else 1

def recordings (ip : IpAddr) (port : UInt16) (v : Via) : List Via :=
  [(v.setReceived ip.render).setRport port, (v.setRport port).setReceived ip.render]

variable {ip : IpAddr} {port : UInt16} {v w : Via}

theorem mem_recordings_iff : w ∈ v.recordings ip port ↔
    w = (v.setReceived ip.render).setRport port ∨ w = (v.setRport port).setReceived ip.render := by
  rw [recordings, List.mem_cons, List.mem_singleton]

theorem get?_of_mem_recordings (hw : w ∈ v.recordings ip port) :
    w.params.get? "received".toList = some (some ip.render) ∧
      w.params.get? "rport".toList = some (some (Decimal.write port.toNat)) := by
  have hsame (n : Text) : Text.sameWord n n = true := beq_self_eq_true _
  have hr : ¬ Text.sameWord "received".toList "rport".toList = true := by decide
  have hr' : ¬ Text.sameWord "rport".toList "received".toList = true := by decide
  obtain rfl | rfl := mem_recordings_iff.1 hw
  · simp only [setRport, setReceived, Params.get?_set, if_neg hr', if_pos (hsame _), and_self]
  · simp only [setRport, setReceived, Params.get?_set, if_neg hr, if_pos (hsame _), and_self]

theorem records_of_mem_recordings (hw : w ∈ v.recordings ip port) : Records ip port v w := by
  obtain ⟨hreceived, hrport⟩ := get?_of_mem_recordings hw
  have hr : Text.sameWord "received".toList "rport".toList = false := by decide
  have hr' : Text.sameWord "rport".toList "received".toList = false := by decide
  constructor
  case received => rw [received, Params.value?, hreceived, Option.join_some]
  case rport =>
    rw [rport, hrport]
    simp only [Decimal.readU16?_write]
  all_goals
    obtain rfl | rfl := mem_recordings_iff.1 hw
  case transport.inl | transport.inr | sentBy.inl | sentBy.inr => rfl
  case entry.inl => exact fun i p hp => Params.getElem?_set_set hr hp
  case entry.inr =>
    intro i p hp
    refine (Params.getElem?_set_set hr' hp).trans (congrArg some ?_)
    rw [recordAt]
    by_cases hi : Params.index? "rport".toList v.params = some i
    · rw [if_pos hi, if_neg (Params.index?_ne hr' hp hi), if_pos hi]
    · rw [if_neg hi, if_neg hi]
  case length.inl => exact Params.length_set_set hr _ _ v.params
  case length.inr => exact (Params.length_set_set hr' _ _ v.params).trans (Nat.add_right_comm _ _ _)

theorem setReceived_of_mem_recordings (hw : w ∈ v.recordings ip port) :
    w.setReceived ip.render = w := by
  rw [setReceived, Params.set_eq_self (get?_of_mem_recordings hw).1]

theorem setRport_of_mem_recordings (hw : w ∈ v.recordings ip port) : w.setRport port = w := by
  rw [setRport, Params.set_eq_self (get?_of_mem_recordings hw).2]

theorem printable_of_mem_recordings (hv : Printable v) (hw : w ∈ v.recordings ip port) :
    Printable w := by
  obtain rfl | rfl := mem_recordings_iff.1 hw
  · exact printable_setRport (printable_setReceived hv ip) port
  · exact printable_setReceived (printable_setRport hv port) ip

theorem rereadParam_of_mem_recordings (hv : ∀ p ∈ v.params, Params.rereadParam p = p)
    (hw : w ∈ v.recordings ip port) : ∀ p ∈ w.params, Params.rereadParam p = p := by
  have hip := reread_render ip
  have hport := reread_write port.toNat
  obtain rfl | rfl := mem_recordings_iff.1 hw
  · exact Params.rereadParam_set hport (Params.rereadParam_set hip hv)
  · exact Params.rereadParam_set hip (Params.rereadParam_set hport hv)

/-- A Via of a well-bracketed host and without quotes is read back from its printed form. So it is
with a source recorded in it, in either order and whatever it had of the two parameters before; the
record is there, all else is as it was, and recording it again changes nothing. -/
theorem recordings_survive {t place : Text} (hp : parse t = .ok v) (hquote : '"' ∉ t)
    (hplace : place? t = some place) (hbrackets : HostPort.WellBracketed place) :
    parse v.render = .ok v ∧ ∀ (ip : IpAddr) (port : UInt16), ∀ w ∈ v.recordings ip port,
      parse w.render = .ok w ∧ Records ip port v w ∧ ∀ w' ∈ w.recordings ip port, w' = w := by
  have hv := printable_of_parse hp
  have hne := host_ne_nil_of_parse hp
  have hparams := mem_params_of_parse hp hquote
  have hstable := stable_of_parse hp hplace hbrackets
  refine ⟨parse_render_self hv hne hstable hparams, fun ip port w hw => ?_⟩
  have hrecords := records_of_mem_recordings hw
  have hsentBy := hrecords.sentBy
  have hback : parse w.render = .ok w :=
    parse_render_self (printable_of_mem_recordings hv hw) (hsentBy ▸ hne) (hsentBy ▸ hstable)
      (rereadParam_of_mem_recordings hparams hw)
  refine ⟨hback, hrecords, fun w' hw' => ?_⟩
  rw [mem_recordings_iff, setReceived_of_mem_recordings hw, setRport_of_mem_recordings hw,
    setReceived_of_mem_recordings hw, or_self] at hw'
  exact hw'

theorem recordings_survive_twice :
    let t : Text := "sip/2.0/udp [::1]:+07;RPORT;a==;Received=old;rport=7".toList
    let ip : IpAddr := .v6 0x2001 0xdb8 0 0 0 0 0 1
    let v : Via := ⟨"UDP".toList, ⟨"::1".toList, some 7⟩, [("rport".toList, none),
      (['a'], some ['=']), ("received".toList, some "old".toList), ("rport".toList, some ['7'])]⟩
    let w : Via := ⟨"UDP".toList, ⟨"::1".toList, some 7⟩, [("rport".toList, some "5070".toList),
      (['a'], some ['=']), ("received".toList, some "2001:db8::1".toList),
      ("rport".toList, some ['7'])]⟩
    parse t = .ok v ∧ v.recordings ip 5070 = [w, w] ∧
      w.render = "SIP/2.0/UDP [::1]:7;rport=5070;a==;received=2001:db8::1;rport=7".toList ∧
      parse w.render = .ok w := by
  intro t ip v w
  have hp : parse t = .ok v := by decide
  have hbrackets : HostPort.WellBracketed "[::1]:+07".toList :=
    Or.inr ⟨"::1".toList, ":+07".toList, by decide, by decide, by decide⟩
  have hall := recordings_survive hp (by decide) (by decide) hbrackets
  have hrecordings : v.recordings ip 5070 = [w, w] := by decide +kernel
  exact ⟨hp, hrecordings, by decide, (hall.2 ip 5070 w (hrecordings ▸ List.mem_cons_self)).1⟩

end Via
end SipTestbed
