import SipTestbed.Proofs.ResponseText
import SipTestbed.Proofs.Ruling
import SipTestbed.Session

/-! Replies as their receivers read them: an echo of the request, with no field added but those of
the status. Every text in a reply that a sender has a say in is a single line. -/
namespace SipTestbed

open Text (OneLine)

def replyCodes : List UInt16 := [200, 400, 401, 404, 500, 501]

def addedNames (code : UInt16) : List Text :=
  if code = 200 then ["contact".toList, "expires".toList]
  else if code = 401 then ["www-authenticate".toList]
  else []

def allAdded : List Text := ["contact".toList, "expires".toList, "www-authenticate".toList]

def taken : List Text := "to".toList :: copied

def Request.replyWith (tag : Token 16) (code : UInt16) (added : List (Text × Text)) (r : Request) :
    Response :=
  ⟨code, reasonPhrase code, ⟨(echoHeaders tag code r.headers).entries ++ added⟩, []⟩

/-- A reply as the gate makes them, with nothing in the added fields that breaks a line. -/
def Request.RepliedBy (r : Request) (resp : Response) : Prop :=
  ∃ tag code added, resp = r.replyWith tag code added ∧ code ∈ replyCodes ∧
    added.map Prod.fst = addedNames code ∧ ∀ e ∈ added, OneLine e.2

/-- A response that a sender takes for the reply to its request. -/
structure Response.Echoes (r : Request) (resp : Response) : Prop where
  code : resp.code ∈ replyCodes
  body : resp.body = []
  size : resp.headers.getAll contentLength = [['0']]
  copied : ∀ n ∈ copied, resp.headers.getAll n = (r.headers.getAll n).map Text.trim
  recipient : match r.headers.get? "to".toList with
    | none => resp.headers.getAll "to".toList = []
    | some v => resp.headers.getAll "to".toList = [Text.trim v] ∨
        ∃ tag : Token 16, resp.headers.getAll "to".toList =
          [Text.trim (v ++ ";tag=".toList ++ tag.digits)]
  added : (resp.headers.entries.map Prod.fst).filter (· ∉ contentLength :: taken) =
    addedNames resp.code

theorem oneLine_reasonPhrase (code : UInt16) : OneLine (reasonPhrase code) := by
  unfold reasonPhrase
  split <;> decide

theorem Token.oneLine_digits {n : Nat} (t : Token n) : OneLine t.digits :=
  t.not_mem_digits (by decide)

theorem Registrar.oneLine_challenge (fresh : Fresh) {realm : Text} (h : OneLine realm) :
    OneLine (challenge fresh realm) := by
  have hnonce : OneLine "Digest nonce=\"".toList := by decide
  have hecho : OneLine "\",opaque=\"".toList := by decide
  have hkind : OneLine "\",qop=\"auth\",algorithm=\"MD5\",realm=\"".toList := by decide
  have hclose : OneLine ['"'] := by decide
  unfold challenge
  iterate 6 rw [Text.oneLine_append]
  exact ⟨⟨⟨⟨⟨⟨hnonce, Token.oneLine_digits _⟩, hecho⟩, Token.oneLine_digits _⟩, hkind⟩, h⟩, hclose⟩

namespace Request

variable {r : Request}

theorem reply_eq (tag : Token 16) (code : UInt16) (r : Request) :
    r.reply tag code = r.replyWith tag code [] := by
  rw [replyWith, List.append_nil]
  rfl

theorem addHeader_replyWith {n : Text} (hn : Headers.normalise n = n) (v : Text) (tag : Token 16)
    (code : UInt16) (added : List (Text × Text)) (r : Request) :
    (r.replyWith tag code added).addHeader n v = r.replyWith tag code (added ++ [(n, v)]) := by
  rw [Response.addHeader, Headers.add, hn, replyWith, replyWith, List.append_assoc]

theorem repliedBy_reply (tag : Token 16) {code : UInt16} (hc : code ∈ [400, 404, 500, 501]) :
    r.RepliedBy (r.reply tag code) := by
  have hcode : code ∈ replyCodes ∧ addedNames code = [] := by
    simp only [List.mem_cons, List.not_mem_nil, or_false] at hc
    obtain rfl | rfl | rfl | rfl := hc <;> decide
  exact ⟨tag, code, [], reply_eq tag code r, hcode.1, hcode.2.symm, by simp⟩

theorem repliedBy_confirmation (fresh : Fresh) {reg : Registration}
    (hreg : OneLine reg.contact.render) : r.RepliedBy (Registrar.confirmation fresh r reg) := by
  refine ⟨fresh.tag, 200, [("contact".toList, ['<'] ++ reg.contact.render ++ ['>']),
    ("expires".toList, Decimal.write reg.seconds)], ?_, by decide, rfl, ?_⟩
  · rw [Registrar.confirmation, reply_eq, addHeader_replyWith (by decide),
      addHeader_replyWith (by decide)]
    rfl
  · simp [hreg, Text.oneLine_write]

theorem repliedBy_challenged (fresh : Fresh) {reg : Registrar} (hd : OneLine reg.bindings.domain) :
    r.RepliedBy (reg.challenged fresh r) := by
  refine ⟨fresh.tag, 401, [("www-authenticate".toList, Registrar.challenge fresh reg.host)], ?_,
    by decide, rfl, ?_⟩
  · rw [Registrar.challenged, reply_eq, addHeader_replyWith (by decide)]
    rfl
  · intro e he
    rw [List.mem_singleton] at he
    exact he ▸ Registrar.oneLine_challenge fresh hd

end Request

theorem mem_addedNames {code : UInt16} {n : Text} (h : n ∈ addedNames code) : n ∈ allAdded := by
  rw [addedNames] at h
  split at h
  · exact List.mem_append_left [_] h
  · split at h
    · exact List.mem_append_right [_, _] h
    · cases h

theorem oneLine_withTag {v : Text} (h : OneLine v) (tag : Token 16) (code : UInt16) :
    OneLine (withTag tag code v) := by
  have htag : OneLine ";tag=".toList := by decide
  rw [withTag]
  split
  · exact h
  · rw [Text.oneLine_append, Text.oneLine_append]
    exact ⟨⟨h, htag⟩, tag.oneLine_digits⟩

theorem echoHeaders_cases {tag : Token 16} {code : UInt16} {hs : Headers} {e : Text × Text}
    (he : e ∈ (echoHeaders tag code hs).entries) :
    (e.1 ∈ copied ∧ e.2 ∈ hs.getAll e.1) ∨
      (e.1 = "to".toList ∧ ∃ v, hs.get? "to".toList = some v ∧ e.2 = withTag tag code v) := by
  rw [entries_echoHeaders] at he
  simp only [List.mem_append, List.mem_map, Option.mem_toList] at he
  obtain (((⟨v, hv, rfl⟩ | ⟨v, hv, rfl⟩) | ⟨-, ⟨v, hv, rfl⟩, rfl⟩) | ⟨v, hv, rfl⟩) | ⟨v, hv, rfl⟩ :=
    he
  · exact Or.inl ⟨List.mem_cons_self, hv⟩
  · exact Or.inl ⟨List.mem_of_getElem? (i := 1) rfl, hv⟩
  · exact Or.inr ⟨rfl, v, hv, rfl⟩
  · exact Or.inl ⟨List.mem_of_getElem? (i := 2) rfl, hv⟩
  · exact Or.inl ⟨List.mem_of_getElem? (i := 3) rfl, hv⟩

theorem mem_taken {tag : Token 16} {code : UInt16} {hs : Headers} {e : Text × Text}
    (he : e ∈ (echoHeaders tag code hs).entries) : e.1 ∈ taken := by
  cases echoHeaders_cases he with
  | inl h => exact List.mem_cons_of_mem _ h.1
  | inr h => exact h.1 ▸ List.mem_cons_self

namespace Request

variable {r : Request}

theorem printable_of_repliedBy {resp : Response} (hr : r.headers.Unfolded)
    (h : r.RepliedBy resp) : resp.Printable := by
  obtain ⟨tag, code, added, rfl, -, hnames, hvalues⟩ := h
  have hprint : ∀ n ∈ taken ++ allAdded, Headers.normalise n = n ∧ ':' ∉ n ∧ OneLine n := by decide
  have hname : ∀ n ∈ taken ++ allAdded, Headers.Printable n :=
    fun n hn => ⟨(hprint n hn).1, (hprint n hn).2.1, (hprint n hn).2.2⟩
  refine ⟨oneLine_reasonPhrase code, ?_, ?_, Nat.zero_le _⟩
  · intro e he
    apply hname
    cases List.mem_append.1 he with
    | inl he => exact List.mem_append_left _ (mem_taken he)
    | inr he =>
      have hm : e.1 ∈ addedNames code := hnames ▸ List.mem_map_of_mem he
      exact List.mem_append_right _ (mem_addedNames hm)
  · intro e he
    cases List.mem_append.1 he with
    | inl he =>
      cases echoHeaders_cases he with
      | inl h => exact Headers.oneLine_of_mem_getAll hr h.2
      | inr h =>
        obtain ⟨-, v, hv, hw⟩ := h
        exact hw ▸ oneLine_withTag (Headers.oneLine_of_get? hr hv) tag code
    | inr he => exact hvalues e he

theorem getAll_replyWith {code : UInt16} {added : List (Text × Text)}
    (hnames : added.map Prod.fst = addedNames code) {n : Text} (hn : n ∈ taken)
    (tag : Token 16) (r : Request) :
    (r.replyWith tag code added).headers.getAll n = (echoHeaders tag code r.headers).getAll n := by
  have happart : ∀ n ∈ taken, Headers.normalise n ∉ allAdded := by decide
  have hno : (added.filter fun e => e.1 == Headers.normalise n) = [] := by
    rw [List.filter_eq_nil_iff]
    intro e he hen
    have hm : e.1 ∈ addedNames code := hnames ▸ List.mem_map_of_mem he
    exact happart n hn ((beq_iff_eq.1 hen) ▸ mem_addedNames hm)
  simp only [replyWith, Headers.getAll, List.filter_append, hno, List.append_nil]

theorem filter_reread (resp : Response) :
    (resp.reread.headers.entries.map Prod.fst).filter (· ∉ contentLength :: taken) =
      (resp.headers.entries.map Prod.fst).filter (· ∉ contentLength :: taken) := by
  have hgiven : (resp.given.map Prod.fst).filter (· ∉ contentLength :: taken) =
      (resp.headers.entries.map Prod.fst).filter (· ∉ contentLength :: taken) := by
    rw [Response.given, List.filter_map, List.filter_map, List.filter_filter]
    congr 1
    apply List.filter_congr
    intro e _
    by_cases he : e.1 = contentLength
    · simp [he]
    · simp [he]
  have hread : resp.reread.headers.entries.map Prod.fst =
      resp.given.map Prod.fst ++ [contentLength] := by
    simp [Response.reread, Response.printed, Response.sizeField, Function.comp_def]
  rw [hread, List.filter_append, hgiven]
  simp

theorem filter_replyWith {code : UInt16} {added : List (Text × Text)}
    (hnames : added.map Prod.fst = addedNames code) (tag : Token 16) (r : Request) :
    ((r.replyWith tag code added).headers.entries.map Prod.fst).filter
      (· ∉ contentLength :: taken) = addedNames code := by
  have hecho : ((echoHeaders tag code r.headers).entries.map Prod.fst).filter
      (· ∉ contentLength :: taken) = [] := by
    rw [List.filter_eq_nil_iff, List.forall_mem_map]
    intro e he
    have hm : e.1 ∈ contentLength :: taken := List.mem_cons_of_mem _ (mem_taken he)
    simp [hm]
  have hadded : (addedNames code).filter (· ∉ contentLength :: taken) = addedNames code := by
    have happart : ∀ n ∈ allAdded, n ∉ contentLength :: taken := by decide
    rw [List.filter_eq_self]
    intro n hn
    simpa using happart n (mem_addedNames hn)
  rw [replyWith, List.map_append, List.filter_append, hecho, hnames, hadded, List.nil_append]

theorem echoes_reread {resp : Response} (h : r.RepliedBy resp) : resp.reread.Echoes r := by
  obtain ⟨tag, code, added, rfl, hcode, hnames, -⟩ := h
  have hsize : ∀ n ∈ taken, Headers.normalise n ≠ contentLength := by decide
  constructor
  · exact hcode
  · rfl
  · have hzero : Decimal.write 0 = ['0'] := by decide
    rw [Response.getAll_reread, if_pos (by decide)]
    exact congrArg ([·]) hzero
  · intro n hn
    have hn' : n ∈ taken := List.mem_cons_of_mem _ hn
    rw [Response.getAll_reread, if_neg (hsize n hn'), getAll_replyWith hnames hn',
      getAll_echoHeaders tag code r.headers hn]
  · have hto : "to".toList ∈ taken := List.mem_cons_self
    have hvalue : (r.replyWith tag code added).reread.headers.getAll "to".toList =
        ((r.headers.get? "to".toList).toList.map (withTag tag code)).map Text.trim := by
      rw [Response.getAll_reread, if_neg (hsize _ hto), getAll_replyWith hnames hto,
        getAll_to_echoHeaders]
    rw [hvalue]
    cases r.headers.get? "to".toList with
    | none => rfl
    | some v =>
      simp only [Option.toList_some, List.map_cons, List.map_nil, withTag]
      split
      · exact Or.inl rfl
      · exact Or.inr ⟨tag, rfl⟩
  · exact (filter_reread _).trans (filter_replyWith hnames tag r)

end Request
end SipTestbed
