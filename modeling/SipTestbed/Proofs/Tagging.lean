import Mathlib.Data.List.Infix
import SipTestbed.Proofs.AddressText
import SipTestbed.Proofs.Delivery

/-! The tag of a reply's To. Whether it has one is looked up in the characters of the request's To,
and not among its parameters: the two differ where `;tag=` stands in the name or in the URI, and
where a tag is spelt otherwise, has no value or is given twice. -/
namespace SipTestbed

namespace Params

def named (n : Text) (ps : Params) : Params := ps.filter fun p => Text.sameWord p.1 n

/-- All other parameters. -/
def others (n : Text) (ps : Params) : Params := ps.filter fun p => !Text.sameWord p.1 n

theorem get?_eq_head? (ps : Params) (n : Text) : ps.get? n = (named n ps).head?.map Prod.snd := by
  rw [get?, named, List.head?_filter]

variable {n : Text} {ps : Params}

theorem name_of_mem_named (hn : Text.lower n = n) (hps : ∀ p ∈ ps, Printable p) {p : Param}
    (h : p ∈ named n ps) : p.1 = n := by
  obtain ⟨hp, hword⟩ := List.mem_filter.1 h
  rwa [Text.sameWord, beq_iff_eq, (hps p hp).lower_name, hn] at hword

theorem named_eq_singleton_iff (hn : Text.lower n = n) (hps : ∀ p ∈ ps, Printable p)
    (v : Option Text) : named n ps = [(n, (ps.get? n).getD v)] ↔ (named n ps).length = 1 := by
  constructor
  · intro h
    rw [h, List.length_singleton]
  · intro h
    obtain ⟨p, hp⟩ := List.length_eq_one_iff.1 h
    have hname : p.1 = n := name_of_mem_named hn hps (hp ▸ List.mem_singleton_self p)
    rw [get?_eq_head?, hp, ← hname]
    rfl

theorem named_append_iff (hword : Text.sameWord n n = true) (v : Option Text) :
    named n (ps ++ [(n, v)]) = [(n, (ps.get? n).getD v)] ↔ (named n ps).length = 0 := by
  have happend : named n (ps ++ [(n, v)]) = named n ps ++ [(n, v)] := by
    simp [named, List.filter_append, hword]
  rw [happend, List.length_eq_zero_iff, get?_eq_head?]
  constructor
  · intro h
    have hlen := congrArg List.length h
    simpa using hlen
  · intro h
    simp [h]

end Params

def tagName : Text := "tag".toList

theorem parse_tag (tag : Token 16) :
    Params.parse ("tag=".toList ++ tag.digits) = [(tagName, some tag.digits)] := by
  have hprint : Params.Printable (tagName, some tag.digits) :=
    Params.printable_pair (by decide) (tag.not_mem_digits (by decide))
  have hreread : Params.reread tag.digits = tag.digits :=
    Params.reread_of_not_mem (tag.not_mem_digits (by decide))
      (Text.trim_of_all fun c hc => Text.isBlank_of_isLowerDigit (Token.isLowerDigit_of_mem hc))
  have htext : "tag=".toList ++ tag.digits =
      [';'].intercalate ([(tagName, some tag.digits)].map Params.body) := by
    simp [List.intercalate, Params.body, tagName]
  rw [htext, Params.parse_render (List.forall_mem_singleton.2 hprint), List.map_singleton,
    Params.rereadParam, Option.map_some, hreread]

/-- A To value is read as the same address, with a new tag behind all parameters if the characters
`;tag=` are not in it. -/
theorem parse_withTag (tag : Token 16) {code : UInt16} (hcode : code ≠ 100) {value : Text}
    {a : Address} (h : Address.parse value = .ok a) :
    Address.parse (withTag tag code value) =
      .ok { a with params :=
        if ";tag=".toList <:+: value then a.params
        else a.params ++ [(tagName, some tag.digits)] } := by
  rw [withTag]
  by_cases hpart : ";tag=".toList <:+: value
  · have hfound : Text.hasPart ";tag=".toList value = true := Text.hasPart_iff.2 hpart
    rw [if_pos hpart, hfound, Bool.true_or, if_pos rfl, h]
  · have hfound : Text.hasPart ";tag=".toList value = false := by
      rwa [Bool.eq_false_iff, Ne, Text.hasPart_iff]
    have hopen : '<' ∉ "tag=".toList ++ tag.digits := by
      rw [List.mem_append, not_or]
      exact ⟨by decide, tag.not_mem_digits (by decide)⟩
    have htext : value ++ ";tag=".toList ++ tag.digits =
        value ++ ';' :: ("tag=".toList ++ tag.digits) := by simp
    rw [if_neg hpart, hfound, Bool.false_or, if_neg (by simpa using hcode), htext,
      Address.parse_append h hopen, parse_tag]

/-- The To of a reply is read as the To of its request, but for the tag. It has one tag, that of
the request or else the new one, exactly if the characters `;tag=` are there where the request's To
has one tag, and not there where it has none. -/
theorem reply_tag_iff (tag : Token 16) {code : UInt16} (hcode : code ≠ 100) {r : Request}
    {value : Text} {a : Address} (hto : r.headers.get? "to".toList = some value)
    (ha : Address.parse value = .ok a) :
    ∃ text b, (r.reply tag code).headers.getAll "to".toList = [text] ∧
      Address.parse text = .ok b ∧ b.displayName = a.displayName ∧ b.uri = a.uri ∧
      Params.others tagName b.params = Params.others tagName a.params ∧
      (Params.named tagName b.params =
          [(tagName, (a.params.get? tagName).getD (some tag.digits))] ↔
        (Params.named tagName a.params).length = if ";tag=".toList <:+: value then 1 else 0) := by
  have hvalue : (r.reply tag code).headers.getAll "to".toList = [withTag tag code value] := by
    have hall := getAll_to_echoHeaders tag code r.headers
    rwa [hto] at hall
  refine ⟨_, _, hvalue, parse_withTag tag hcode ha, rfl, rfl, ?_⟩
  by_cases hpart : ";tag=".toList <:+: value
  · simp only [if_pos hpart]
    exact ⟨trivial, Params.named_eq_singleton_iff (by decide) (Address.printable_of_parse ha) _⟩
  · simp only [if_neg hpart]
    refine ⟨?_, Params.named_append_iff (by decide) _⟩
    simp [Params.others, tagName, Text.sameWord]

theorem reply_tag_fresh :
    let value := "\"Alice\" <sip:alice@127.0.0.1;lr>;x=1".toList
    let r : Request :=
      ⟨"REGISTER".toList, "sip:127.0.0.1".toList, .ofList [("t".toList, value)], []⟩
    let a : Address := ⟨"Alice".toList, ⟨.sip, some ⟨"alice".toList, none⟩,
      ⟨"127.0.0.1".toList, none⟩, [("lr".toList, none)], none⟩, [(['x'], some ['1'])]⟩
    (200 : UInt16) ≠ 100 ∧ r.headers.get? "to".toList = some value ∧ Address.parse value = .ok a ∧
      ∃ text b, (r.reply (.zero 16) 200).headers.getAll "to".toList = [text] ∧
        Address.parse text = .ok b ∧ b.displayName = a.displayName ∧ b.uri = a.uri ∧
        Params.others tagName b.params = [(['x'], some ['1'])] ∧
        Params.named tagName b.params = [(tagName, some (Token.zero 16).digits)] := by
  intro value r a
  have hto : r.headers.get? "to".toList = some value := by decide
  have ha : Address.parse value = .ok a := by decide
  obtain ⟨text, b, hvalue, hb, hname, huri, hothers, hnamed⟩ :=
    reply_tag_iff (.zero 16) (by decide : (200 : UInt16) ≠ 100) hto ha
  have hx : Params.others tagName a.params = [(['x'], some ['1'])] := by decide
  have hnone : Params.named tagName a.params = [] := by decide
  have hpart : ¬ ";tag=".toList <:+: value := by
    rw [← Text.hasPart_iff]
    decide
  have hget : a.params.get? tagName = none := by
    rw [Params.get?_eq_head?, hnone]
    rfl
  rw [hget, hnone, if_neg hpart] at hnamed
  exact ⟨by decide, hto, ha, text, b, hvalue, hb, hname, huri, hothers.trans hx, hnamed.2 rfl⟩

/-- A tag that is not found for its capital and so is given twice, and a parameter of the URI that
is taken for the tag. -/
theorem reply_tag_overlooked :
    let reply (value : Text) := Request.reply (.zero 16) 200
      ⟨"REGISTER".toList, "sip:127.0.0.1".toList, .ofList [("to".toList, value)], []⟩
    let tags (value : Text) := ((reply value).headers.getAll "to".toList).map fun text =>
      (Address.parse text).toOption.map fun a => Params.named tagName a.params
    tags "<sip:alice@127.0.0.1>;Tag=abc".toList =
        [some [(tagName, some "abc".toList), (tagName, some "0000000000000000".toList)]] ∧
      tags "<sip:alice@127.0.0.1;tag=u>".toList = [some []] := by
  intro reply tags
  exact ⟨by decide, by decide⟩

end SipTestbed
