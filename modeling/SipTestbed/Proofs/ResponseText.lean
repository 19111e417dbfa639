import SipTestbed.Proofs.LineBreaks

/-! Printed responses are read back. Fields come out in their order, their values up to trimming,
and the Content-Length at the end tells the true size of the body. No value that is one line can
start a line of its own or end the head. -/
namespace SipTestbed

open Text (OneLine)

namespace Message

def unlines (ls : List Text) (last : Text) : Text := ls.flatMap (· ++ crlf) ++ last

theorem unlines_cons (l : Text) (ls : List Text) (last : Text) :
    unlines (l :: ls) last = l ++ crlf ++ unlines ls last := by
  simp [unlines]

def headEnd : Utf8.Octets := [13, 10, 13, 10]

theorem solid_encode {t : Text} (hne : t ≠ []) (h : OneLine t) : Solid (Utf8.encode t ++ [13]) := by
  have hfeed : 10 ∉ Utf8.encode t ++ [13] := by simp [Utf8.not_mem_encode h]
  refine ⟨hfeed, ?_⟩
  intro b he
  cases b with
  | crlf => exact Utf8.encode_ne_nil hne (List.append_left_eq_self.1 he)
  | lf => simp [LineBreak.before, Utf8.encode] at he

theorem encode_unlines (ls : List Text) (last : Text) : Utf8.encode (unlines ls last) =
    fed (ls.map fun l => Utf8.encode l ++ [13]) ++ Utf8.encode last := by
  induction ls with
  | nil => rfl
  | cons l ls ih =>
    have hbreak : Utf8.encode crlf = [13, 10] := by decide
    rw [unlines_cons, Utf8.encode_append, Utf8.encode_append, ih, hbreak]
    simp [fed]

theorem cutAt?_unlines {ls : List Text} (hls : ∀ l ∈ ls, l ≠ [] ∧ OneLine l) {last : Text}
    (hne : last ≠ []) (hlast : OneLine last) (body : Utf8.Octets) :
    cutAt? headEnd (Utf8.encode (unlines ls last) ++ (headEnd ++ body)) =
      some (Utf8.encode (unlines ls last), body) := by
  have hfront : ∀ m ∈ ls.map fun l => Utf8.encode l ++ [13], Solid m :=
    List.forall_mem_map.2 fun l hl => solid_encode (hls l hl).1 (hls l hl).2
  have hgroup : headEnd = LineBreak.crlf.headEnd := by decide
  have hrest : Utf8.encode last ++ (LineBreak.crlf.headEnd ++ body) =
      (Utf8.encode last ++ [13]) ++ 10 :: 13 :: 10 :: body := by
    rw [← hgroup, headEnd]
    simp
  rw [encode_unlines, hgroup, List.append_assoc, hrest,
    cutAt?_fed .crlf hfront (solid_encode hne hlast), ← hrest,
    cutAt?_headEnd .crlf (Utf8.not_mem_encode hlast), Option.map_some]

theorem lines_unlines {ls : List Text} (hls : ∀ l ∈ ls, OneLine l) {last : Text}
    (hlast : OneLine last) (hstrip : stripReturn last = last) :
    lines (unlines ls last) = ls ++ [last] := by
  have hreturn (l : Text) : stripReturn (l ++ ['\r']) = l := by simp [stripReturn]
  induction ls with
  | nil =>
    have hone : lines last = [stripReturn last] := lines_of_oneLine hlast
    rw [hstrip] at hone
    exact hone
  | cons l ls ih =>
    obtain ⟨hl, hrest⟩ := List.forall_mem_cons.1 hls
    have htext : unlines (l :: ls) last = (l ++ ['\r']) ++ '\n' :: unlines ls last := by
      simp [unlines_cons, crlf]
    have hline : OneLine (l ++ ['\r']) := by simpa using hl
    rw [htext, lines_cons hline, hreturn, ih hrest]
    rfl

end Message

namespace Headers

theorem lower_capitalise (part : Text) : Text.lower (capitalise part) = Text.lower part := by
  cases part with
  | nil => rfl
  | cons c part =>
    rw [capitalise, Text.lower, List.map_cons, Text.toLower_toUpper]
    rfl

theorem lower_canonical (n : Text) : Text.lower (canonical n) = Text.lower n := by
  rw [canonical]
  split
  · rename_i h
    subst h
    decide
  · split
    · rename_i h
      subst h
      decide
    · split
      · rename_i h
        subst h
        decide
      · have hparts : Text.lower ∘ capitalise = Text.lower := funext lower_capitalise
        have hdash : Text.lower ['-'] = ['-'] := by decide
        calc Text.lower (['-'].intercalate ((n.splitOn '-').map capitalise))
            = ['-'].intercalate ((n.splitOn '-').map Text.lower) := by
              rw [Text.lower_intercalate, List.map_map, hparts, hdash]
          _ = Text.lower (['-'].intercalate (n.splitOn '-')) := by
              rw [Text.lower_intercalate, hdash]
          _ = Text.lower n := by rw [List.intercalate_splitOn]

theorem mem_of_mem_canonical {n : Text} {c : Char} (hl : c.toLower = c)
    (hc : c.toNat < 97 ∨ 122 < c.toNat) (h : c ∈ canonical n) : c ∈ n := by
  have hm : c.toLower ∈ Text.lower (canonical n) := List.mem_map_of_mem h
  rw [hl, lower_canonical] at hm
  exact Text.mem_of_mem_lower hc hm

/-- A name under its kept spelling that can be told from its value. -/
structure Printable (n : Text) : Prop where
  normal : normalise n = n
  colon : ':' ∉ n
  line : OneLine n

theorem trim_of_normal {n : Text} (h : normalise n = n) : Text.trim n = n := by
  have hn : Text.lower (Text.trim n) = n := by
    have he := (lower_trim_expand (lower_trim_lower_trim n)).1
    rwa [← normalise, h] at he
  calc Text.trim n = Text.trim (Text.lower (Text.trim n)) := by rw [hn]
    _ = Text.lower (Text.trim n) := by rw [Text.trim_lower, Text.trim_trim]
    _ = n := hn

theorem normalise_canonical {n : Text} (h : normalise n = n) :
    normalise (Text.trim (canonical n)) = n := by
  rw [normalise, Text.trim_trim, ← Text.trim_lower, lower_canonical, Text.trim_lower, ← normalise,
    h]

def fieldLine (e : Text × Text) : Text := canonical e.1 ++ ": ".toList ++ e.2

theorem oneLine_fieldLine {e : Text × Text} (hn : Printable e.1) (hv : OneLine e.2) :
    fieldLine e ≠ [] ∧ OneLine (fieldLine e) := by
  have hname : OneLine (canonical e.1) :=
    fun hm => hn.line (mem_of_mem_canonical (by decide) (by decide) hm)
  exact ⟨by simp [fieldLine], by simpa [fieldLine, hname] using hv⟩

end Headers

namespace Message

theorem isFold_of_head {line : Text} (h : ∀ c, line.head? = some c → Text.isBlank c = false) :
    isFold line = false := by
  have hnot {c : Char} (hc : Text.isBlank c = true) : (line.head? == some c) = false := by
    rw [beq_eq_false_iff_ne]
    intro he
    rw [h c he] at hc
    cases hc
  rw [isFold, hnot (by decide), hnot (by decide)]
  rfl

theorem fields_named {name : Text} (hcolon : ':' ∉ name)
    (hname : Text.trim (Text.lower name) = Text.lower name) (v : Text)
    (done : List (Text × Text)) (open? : Option (Text × Text)) (ls : List Text) :
    fields done open? ((name ++ ": ".toList ++ v) :: ls) =
      fields (done ++ open?.toList) (some (Text.trim name, Text.trim v)) ls := by
  have hne : (name ++ ": ".toList ++ v).isEmpty = false := by simp
  have hfold : isFold (name ++ ": ".toList ++ v) = false := by
    apply isFold_of_head
    intro c hc
    cases name with
    | nil =>
      cases hc
      rfl
    | cons d name =>
      cases hc
      have hlower : (Text.lower (c :: name)).head? = some c.toLower := rfl
      rw [← hname] at hlower
      rw [← Text.isBlank_toLower]
      exact Text.head?_trimBy hlower
  have hcut : Text.cut? ':' (name ++ ": ".toList ++ v) = some (name, ' ' :: v) :=
    Text.cut?_eq_some_iff.2 ⟨by simp, hcolon⟩
  have hvalue : Text.trim (' ' :: v) = Text.trim v :=
    Text.trim_append_of_blank (List.forall_mem_singleton.2 rfl) v
  rw [fields.eq_def]
  simp only [hne, hfold, hcut, Bool.false_eq_true, if_false, hvalue]

theorem fields_fieldLines {es : List (Text × Text)} (hes : ∀ e ∈ es, Headers.Printable e.1)
    (done : List (Text × Text)) (open? : Option (Text × Text)) :
    fields done open? (es.map Headers.fieldLine) = .ok (done ++ open?.toList ++
      es.map fun e => (Text.trim (Headers.canonical e.1), Text.trim e.2)) := by
  induction es generalizing done open? with
  | nil => simp [fields]
  | cons e es ih =>
    obtain ⟨he, hrest⟩ := List.forall_mem_cons.1 hes
    have hcolon : ':' ∉ Headers.canonical e.1 :=
      fun hm => he.colon (Headers.mem_of_mem_canonical (by decide) (by decide) hm)
    have hname : Text.trim (Text.lower (Headers.canonical e.1)) =
        Text.lower (Headers.canonical e.1) := by
      rw [Headers.lower_canonical, Text.trim_lower, Headers.trim_of_normal he.normal]
    rw [List.map_cons, Headers.fieldLine, fields_named hcolon hname, ih hrest]
    simp

end Message

theorem Decimal.trim_write (n : Nat) : Text.trim (write n) = write n := by
  apply Text.trim_of_all
  intro c hc
  exact Text.isBlank_of_isDigit (isDigit_of_mem_write hc)

namespace Response

/-- A response whose parts stay apart when printed. -/
structure Printable (r : Response) : Prop where
  reason : OneLine r.reason
  names : ∀ e ∈ r.headers.entries, Headers.Printable e.1
  values : r.headers.Unfolded
  size : r.body.length ≤ 18446744073709551615

def statusLine (r : Response) : Text :=
  sipVersion ++ [' '] ++ Decimal.write r.code.toNat ++ [' '] ++ r.reason

def given (r : Response) : List (Text × Text) :=
  r.headers.entries.filter fun e => e.1 != contentLength

def sizeField (r : Response) : Text × Text := (contentLength, Decimal.write r.body.length)

def printed (r : Response) : List (Text × Text) := r.given ++ [r.sizeField]

/-- What reading makes of a printed response. -/
def reread (r : Response) : Response :=
  { r with
    reason := Text.trim r.reason
    headers := ⟨r.printed.map fun e => (e.1, Text.trim e.2)⟩ }

def headText (r : Response) : Text :=
  Message.unlines (r.statusLine :: r.given.map Headers.fieldLine) (Headers.fieldLine r.sizeField)

theorem head_eq (r : Response) : r.head = r.headText ++ crlf ++ crlf := by
  have hfields : r.given.flatMap Headers.renderEntry =
      (r.given.map Headers.fieldLine).flatMap (· ++ crlf) := by
    rw [List.flatMap_map]
    rfl
  have hsize : Headers.fieldLine r.sizeField =
      "Content-Length: ".toList ++ Decimal.write r.body.length := by
    have hname : Headers.canonical contentLength ++ ": ".toList = "Content-Length: ".toList := by
      decide
    rw [Headers.fieldLine, sizeField, hname]
  rw [head, Headers.render, ← given, headText, Message.unlines_cons, Message.unlines, hfields,
    hsize, statusLine]
  simp

variable {r : Response}

theorem statusLine?_statusLine (r : Response) :
    Message.statusLine? r.statusLine = some (r.code, Text.trim r.reason) := by
  have hversion : Text.cut? ' ' r.statusLine =
      some (sipVersion, Decimal.write r.code.toNat ++ ' ' :: r.reason) := by
    rw [Text.cut?_eq_some_iff]
    exact ⟨by simp [statusLine], by decide⟩
  have hcode : Text.cut? ' ' (Decimal.write r.code.toNat ++ ' ' :: r.reason) =
      some (Decimal.write r.code.toNat, r.reason) := by
    rw [Text.cut?_eq_some_iff]
    exact ⟨rfl, IpAddr.not_mem_write (by decide) _⟩
  simp [Message.statusLine?, hversion, hcode, Decimal.readU16?_write]

theorem printable_contentLength : Headers.Printable contentLength :=
  ⟨by decide, by decide, by decide⟩

theorem Printable.printed (h : r.Printable) :
    ∀ e ∈ r.printed, Headers.Printable e.1 ∧ OneLine e.2 := by
  intro e he
  cases List.mem_append.1 he with
  | inl he =>
    have hm := (List.mem_filter.1 he).1
    exact ⟨h.names e hm, h.values e hm⟩
  | inr he =>
    rw [List.mem_singleton] at he
    exact he ▸ ⟨printable_contentLength, Text.oneLine_write _⟩

theorem fields_printed (h : r.Printable) :
    (Message.fields [] none (r.printed.map Headers.fieldLine)).map Headers.ofList =
      .ok r.reread.headers := by
  rw [Message.fields_fieldLines fun e he => (h.printed e he).1]
  simp only [Except.map, Except.ok.injEq, Option.toList_none, List.append_nil, List.nil_append]
  have hentries : (Headers.ofList (r.printed.map fun e =>
      (Text.trim (Headers.canonical e.1), Text.trim e.2))).entries = r.reread.headers.entries := by
    rw [Headers.entries_ofList, List.map_map]
    apply List.map_congr_left
    intro e he
    simp [Headers.normalise_canonical (h.printed e he).1.normal]
  exact congrArg Headers.mk hentries

/-- Whatever sizes the response gave, the true one is read, and of other names the same values up
to trimming. -/
theorem getAll_reread (r : Response) (n : Text) : r.reread.headers.getAll n =
    if Headers.normalise n = contentLength then [Decimal.write r.body.length]
    else (r.headers.getAll n).map Text.trim := by
  simp only [reread, printed, given, sizeField, Headers.getAll, List.map_append, List.map_cons,
    List.map_nil, List.filter_append, Decimal.trim_write, List.filter_map, List.filter_filter,
    Function.comp_def]
  by_cases hn : Headers.normalise n = contentLength
  · rw [if_pos hn, hn]
    have hno : (r.headers.entries.filter fun e => e.1 == contentLength && e.1 != contentLength) =
        [] := by simp
    rw [hno]
    simp
  · have hsame : (r.headers.entries.filter fun e =>
        e.1 == Headers.normalise n && e.1 != contentLength) =
        r.headers.entries.filter fun e => e.1 == Headers.normalise n := by
      apply List.filter_congr
      intro e _
      by_cases he : e.1 = Headers.normalise n
      · simp [he, hn]
      · simp [he]
    rw [if_neg hn, hsame]
    simp [Ne.symm hn]

theorem limitBody_reread (h : r.Printable) :
    Message.limitBody r.reread.headers r.body = .ok r.body := by
  have hsize : r.reread.headers.get? contentLength = some (Decimal.write r.body.length) := by
    rw [Headers.get?_eq_head?, getAll_reread, if_pos (by decide)]
    rfl
  simp [Message.limitBody, hsize, Decimal.trim_write, Decimal.readU64?_write h.size]

theorem oneLine_front (h : r.Printable) :
    ∀ l ∈ r.statusLine :: r.given.map Headers.fieldLine, l ≠ [] ∧ OneLine l := by
  rw [List.forall_mem_cons, List.forall_mem_map]
  constructor
  · have hversion : OneLine sipVersion := by decide
    exact ⟨by simp [statusLine], by simp [statusLine, hversion, Text.oneLine_write, h.reason]⟩
  · intro e he
    obtain ⟨hn, hv⟩ := h.printed e (List.mem_append_left _ he)
    exact Headers.oneLine_fieldLine hn hv

theorem oneLine_sizeField (r : Response) :
    Headers.fieldLine r.sizeField ≠ [] ∧ OneLine (Headers.fieldLine r.sizeField) :=
  Headers.oneLine_fieldLine printable_contentLength (Text.oneLine_write _)

theorem splitHead_encode (h : r.Printable) :
    Message.splitHead r.encode = (Utf8.encode r.headText, r.body) := by
  obtain ⟨hne, hlast⟩ := r.oneLine_sizeField
  have hcut := Message.cutAt?_unlines (oneLine_front h) hne hlast r.body
  have hencode : r.encode = Utf8.encode r.headText ++ (Message.headEnd ++ r.body) := by
    rw [encode, head_eq, List.append_assoc, Utf8.encode_append, List.append_assoc]
    rfl
  rw [← headText, ← hencode, Message.headEnd] at hcut
  rw [Message.splitHead, hcut]
  rfl

theorem lines_headText (h : r.Printable) :
    Message.lines r.headText = r.statusLine :: r.printed.map Headers.fieldLine := by
  -- The last line ends in a digit, so no carriage return is taken off it.
  have hstrip : Message.stripReturn (Headers.fieldLine r.sizeField) =
      Headers.fieldLine r.sizeField := by
    rw [Message.stripReturn, if_neg]
    rw [beq_iff_eq, Headers.fieldLine, List.getLast?_append]
    intro hreturn
    have hne : Decimal.write r.body.length ≠ [] := Nat.toDigits_ne_nil
    rw [sizeField, List.getLast?_eq_some_getLast hne, Option.some_or, Option.some.injEq] at hreturn
    exact IpAddr.not_mem_write (by decide) _ (hreturn ▸ List.getLast_mem hne)
  have hfront : ∀ l ∈ r.statusLine :: r.given.map Headers.fieldLine, OneLine l :=
    fun l hl => (oneLine_front h l hl).2
  rw [headText, Message.lines_unlines hfront r.oneLine_sizeField.2 hstrip, printed]
  simp

end Response

theorem Message.parse_encode {r : Response} (h : r.Printable) :
    parse r.encode = .ok (.response r.reread) := by
  have hskip : skipBreaks r.encode = r.encode := rfl
  have hsome : r.encode.isEmpty = false := rfl
  have hversion : isVersion r.statusLine = true := rfl
  have hfields := Response.fields_printed h
  rw [parse, hskip, hsome, Response.splitHead_encode h]
  simp only [Bool.false_eq_true, if_false, Utf8.decode?_encode, Response.lines_headText h,
    List.headD_cons, List.tail_cons, ofLines]
  cases hf : fields [] none (r.printed.map Headers.fieldLine) with
  | error e =>
    rw [hf] at hfields
    cases hfields
  | ok es =>
    rw [hf] at hfields
    simp only [Except.map, Except.ok.injEq] at hfields
    simp only [bind, Except.bind, hfields, Response.limitBody_reread h, ofParts, hversion, if_true,
      Response.statusLine?_statusLine]
    rfl

end SipTestbed
