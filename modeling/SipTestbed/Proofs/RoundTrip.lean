import SipTestbed.Proofs.ResponseText

/-! Responses come back from their octets. The names may be any, in any spelling, and the body may
hold what looks like the end of a head; all that changes is that one field at the end tells the
size, in place of whatever sizes were given. -/
namespace SipTestbed

open Text (OneLine)

/-- A text as reading leaves it: one line, without blanks at its ends. -/
structure Text.Neat (t : Text) : Prop where
  line : OneLine t
  trimmed : trim t = t

namespace Headers

theorem mem_of_mem_expand {n : Text} {c : Char} (hc : ∀ d l, longForm? d = some l → c ∉ l)
    (h : c ∈ expand n) : c ∈ n := by
  match n with
  | [] => exact h
  | [d] =>
    cases hl : longForm? d with
    | none => simpa [expand, hl] using h
    | some l =>
      rw [expand, hl, Option.getD_some] at h
      exact absurd h (hc d l hl)
  | _ :: _ :: _ => exact h

theorem not_mem_longForm? {d : Char} {l : Text} (h : longForm? d = some l) :
    ':' ∉ l ∧ OneLine l := by
  unfold longForm? at h
  split at h <;> cases h
  all_goals decide

theorem printable_normalise {n : Text} (hcolon : ':' ∉ n) (hline : OneLine n) :
    Printable (normalise n) := by
  have hkept {c : Char} (hlow : c.toNat < 97) (hc : ∀ d l, longForm? d = some l → c ∉ l)
      (hm : c ∈ normalise n) : c ∈ n := by
    have hlower : c ∈ Text.lower (Text.trim n) := mem_of_mem_expand hc hm
    exact Text.mem_of_mem_trimBy (Text.mem_of_mem_lower (Or.inl hlow) hlower)
  refine ⟨normalise_normalise n, ?_, ?_⟩
  · intro hm
    exact hcolon (hkept (by decide) (fun d l hl => (not_mem_longForm? hl).1) hm)
  · intro hm
    exact hline (hkept (by decide) (fun d l hl => (not_mem_longForm? hl).2) hm)

end Headers

namespace Response

def sized (r : Response) : Response := { r with headers := ⟨r.printed⟩ }

theorem given_sized (r : Response) : r.sized.given = r.given := by
  have hsize : ([r.sizeField].filter fun e => e.1 != contentLength) = [] := by simp [sizeField]
  have hgiven : (r.given.filter fun e => e.1 != contentLength) = r.given := by
    rw [given, List.filter_filter]
    simp only [Bool.and_self]
  rw [given, sized, printed, List.filter_append, hgiven, hsize, List.append_nil]

theorem encode_sized (r : Response) : r.sized.encode = r.encode := by
  have hgiven : (r.sized.headers.entries.filter fun e => e.1 != contentLength) =
      r.headers.entries.filter fun e => e.1 != contentLength := given_sized r
  have hhead : r.sized.head = r.head := by
    rw [head, head, Headers.render, Headers.render, hgiven]
    rfl
  rw [encode, encode, hhead]
  rfl

theorem reread_eq_sized {r : Response} (hreason : r.reason.Neat)
    (hvalues : ∀ e ∈ r.headers.entries, e.2.Neat) : r.reread = r.sized := by
  have hprinted : ∀ e ∈ r.printed, Text.trim e.2 = e.2 := by
    intro e he
    cases List.mem_append.1 he with
    | inl hgiven => exact (hvalues e (List.mem_filter.1 hgiven).1).trimmed
    | inr hsize =>
      rw [List.mem_singleton] at hsize
      exact hsize ▸ Decimal.trim_write _
  have hfields : (r.printed.map fun e => (e.1, Text.trim e.2)) = r.printed :=
    calc (r.printed.map fun e => (e.1, Text.trim e.2))
        = r.printed.map id := List.map_congr_left fun e he => by rw [hprinted e he, id]
      _ = r.printed := List.map_id _
  rw [reread, hfields, hreason.trimmed, sized]

theorem printable_ofList (code : UInt16) {reason : Text} (hreason : reason.Neat)
    {es : List (Text × Text)} (hnames : ∀ e ∈ es, ':' ∉ e.1 ∧ OneLine e.1)
    (hvalues : ∀ e ∈ es, e.2.Neat) {body : Utf8.Octets}
    (hsize : body.length ≤ 18446744073709551615) :
    (Response.mk code reason (.ofList es) body).Printable := by
  refine ⟨hreason.line, ?_, ?_, hsize⟩
  · rw [Headers.entries_ofList, List.forall_mem_map]
    intro e he
    exact Headers.printable_normalise (hnames e he).1 (hnames e he).2
  · rw [Headers.Unfolded, Headers.entries_ofList, List.forall_mem_map]
    intro e he
    exact (hvalues e he).line

/-- A response is read back from its octets with the same code, reason and body, and with the same
fields in the same order but for their sizes, in place of which the true one comes last. What was
read is printed as the same octets again. No body in memory is longer than the size that is read. -/
theorem parse_encode_ofList (code : UInt16) {reason : Text} (hreason : reason.Neat)
    {es : List (Text × Text)} (hnames : ∀ e ∈ es, ':' ∉ e.1 ∧ OneLine e.1)
    (hvalues : ∀ e ∈ es, e.2.Neat) {body : Utf8.Octets}
    (hsize : body.length ≤ 18446744073709551615) :
    let r : Response := ⟨code, reason, .ofList es, body⟩
    let back : Response := ⟨code, reason,
      ⟨(r.headers.entries.filter fun e => e.1 != contentLength) ++
        [(contentLength, Decimal.write body.length)]⟩, body⟩
    Message.parse r.encode = .ok (.response back) ∧ back.encode = r.encode := by
  intro r back
  have hentries : ∀ e ∈ r.headers.entries, e.2.Neat := by
    rw [Headers.entries_ofList, List.forall_mem_map]
    exact hvalues
  have hback : r.reread = back := reread_eq_sized hreason hentries
  have hparse := Message.parse_encode (printable_ofList code hreason hnames hvalues hsize)
  exact ⟨hback ▸ hparse, encode_sized r⟩

theorem parse_encode_blankLines :
    Message.parse (Response.encode ⟨200, "OK".toList, .ofList [("F".toList, "a".toList),
        (" l".toList, ['7']), ([], []), ("x-É".toList, ['b'])], [13, 10, 13, 10, 255]⟩) =
      .ok (.response ⟨200, "OK".toList, ⟨[("from".toList, "a".toList), ([], []),
        ("x-É".toList, ['b']), (contentLength, ['5'])]⟩, [13, 10, 13, 10, 255]⟩) := by
  have hneat (t : Text) (h : OneLine t ∧ Text.trim t = t) : t.Neat := ⟨h.1, h.2⟩
  refine (parse_encode_ofList 200 (hneat _ (by decide)) (by decide) ?_ (by decide)).1.trans ?_
  · intro e he
    exact hneat _ ((by decide : ∀ e ∈ [("F".toList, "a".toList), (" l".toList, ['7']), ([], []),
      ("x-É".toList, ['b'])], OneLine e.2 ∧ Text.trim e.2 = e.2) e he)
  · decide

end Response
end SipTestbed
