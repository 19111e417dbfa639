import SipTestbed.Proofs.Delivery
import SipTestbed.Proofs.OneLine

/-! Messages whose lines end in CRLF or in LF alone, each as it likes. The end of the head is looked
for among all the octets, CRLF CRLF before LF LF, and not line by line. So a blank line in CRLF
after a line in LF is passed over, and so is one in LF before a body with CRLF CRLF in it. What is
read then is short of a part of the body. -/
namespace SipTestbed

open Text (OneLine)

theorem Utf8.not_mem_encode {t : Text} (h : OneLine t) : 10 ∉ encode t :=
  fun hm => h (mem_of_mem_encode (by decide) hm)

theorem Utf8.encode_ne_nil {t : Text} (h : t ≠ []) : encode t ≠ [] := by
  obtain ⟨c, t, rfl⟩ := List.exists_cons_of_ne_nil h
  intro he
  have hd := decode?_encode (c :: t)
  rw [he] at hd
  cases hd

inductive LineBreak where
  | crlf
  | lf
  deriving DecidableEq, Repr

namespace LineBreak

def before : LineBreak → Text
  | .crlf => ['\r']
  | .lf => []

def text (b : LineBreak) : Text := b.before ++ ['\n']

def octets (b : LineBreak) : Utf8.Octets := Utf8.encode b.text

def headEnd (b : LineBreak) : Utf8.Octets := b.octets ++ b.octets

theorem octets_eq (b : LineBreak) : b.octets = Utf8.encode b.before ++ [10] := by
  cases b <;> rfl

theorem not_mem_before (b : LineBreak) : 10 ∉ Utf8.encode b.before := by
  cases b <;> decide

end LineBreak

namespace Message

theorem eq_of_cutAt? {g t a b : Utf8.Octets} (h : cutAt? g t = some (a, b)) :
    t = a ++ (g ++ b) := by
  induction t generalizing a with
  | nil => cases h
  | cons c t ih =>
    rw [cutAt?] at h
    split at h
    · rename_i hg
      obtain ⟨r, hr⟩ := List.isPrefixOf_iff_prefix.1 hg
      cases h
      rw [← hr, List.drop_left, List.nil_append]
    · obtain ⟨p, hp, he⟩ := Option.map_eq_some_iff.1 h
      obtain ⟨a', b'⟩ := p
      cases he
      rw [ih hp, List.cons_append]

theorem cutAt?_eq_none_iff {g : Utf8.Octets} (hg : g ≠ []) {t : Utf8.Octets} :
    cutAt? g t = none ↔ ¬ g <:+: t := by
  induction t with
  | nil => simp [cutAt?, hg]
  | cons c t ih =>
    rw [cutAt?, List.infix_cons_iff, ← List.isPrefixOf_iff_prefix]
    split
    · rename_i h
      simp [h]
    · rename_i h
      rw [Option.map_eq_none_iff, ih]
      simp [h]

/-- A line, up to its line feed, that is not blank. -/
structure Solid (l : Utf8.Octets) : Prop where
  feed : 10 ∉ l
  before (b : LineBreak) : l ≠ Utf8.encode b.before

def fed (ls : List Utf8.Octets) : Utf8.Octets := ls.flatMap (· ++ [10])

variable {l : Utf8.Octets}

theorem eq_of_feed {p q r : Utf8.Octets} (hp : 10 ∉ p) (hl : 10 ∉ l)
    (h : p ++ 10 :: q = l ++ 10 :: r) : p = l ∧ q = r := by
  obtain ⟨c, rfl, hc⟩ | ⟨c, rfl, hc⟩ := List.append_eq_append_iff.1 h
  · cases c with
    | nil => exact ⟨(List.append_nil p).symm, (List.cons.inj hc).2⟩
    | cons d c =>
      rw [List.cons_append, List.cons.injEq] at hc
      exact absurd (by simp [← hc.1]) hl
  · cases c with
    | nil => exact ⟨List.append_nil l, (List.cons.inj hc).2.symm⟩
    | cons d c =>
      rw [List.cons_append, List.cons.injEq] at hc
      exact absurd (by simp [← hc.1]) hp

theorem eq_of_octets {b : LineBreak} {r s : Utf8.Octets} (hl : 10 ∉ l)
    (h : b.octets ++ s = l ++ 10 :: r) : Utf8.encode b.before = l ∧ s = r := by
  rw [b.octets_eq, List.append_assoc] at h
  exact eq_of_feed b.not_mem_before hl h

theorem not_isPrefixOf_line {b : LineBreak} (hl : 10 ∉ l) {r : Utf8.Octets}
    (h : Utf8.encode b.before = l → ¬ b.octets <+: r) :
    b.headEnd.isPrefixOf (l ++ 10 :: r) = false := by
  rw [Bool.eq_false_iff, Ne, List.isPrefixOf_iff_prefix]
  intro hstart
  obtain ⟨s, hs⟩ := hstart
  rw [LineBreak.headEnd, List.append_assoc] at hs
  obtain ⟨hline, hrest⟩ := eq_of_octets hl hs
  exact h hline ⟨s, hrest⟩

/-- No head ends in a line or with it unless a blank line of the same break follows. -/
theorem cutAt?_line {b : LineBreak} (hl : 10 ∉ l) {r : Utf8.Octets}
    (h : Utf8.encode b.before <:+ l → ¬ b.octets <+: r) :
    cutAt? b.headEnd (l ++ 10 :: r) = (cutAt? b.headEnd r).map fun c => (l ++ 10 :: c.1, c.2) := by
  have hnot := not_isPrefixOf_line hl fun he => h (he ▸ List.suffix_refl _)
  induction l with
  | nil =>
    rw [List.nil_append] at hnot ⊢
    rw [cutAt?, hnot]
    rfl
  | cons c l ih =>
    have hl' : 10 ∉ l := fun hm => hl (List.mem_cons_of_mem c hm)
    have h' : Utf8.encode b.before <:+ l → ¬ b.octets <+: r :=
      fun hs => h (hs.trans (List.suffix_cons c l))
    have hrest := ih hl' h' (not_isPrefixOf_line hl' fun he => h' (he ▸ List.suffix_refl _))
    rw [List.cons_append] at hnot ⊢
    rw [cutAt?, hnot, hrest]
    simp [Function.comp_def]

theorem cutAt?_headEnd (b : LineBreak) (hl : 10 ∉ l) (r : Utf8.Octets) :
    cutAt? b.headEnd (l ++ (b.headEnd ++ r)) = some (l, r) := by
  have htext (l : Utf8.Octets) : l ++ (b.headEnd ++ r) =
      (l ++ Utf8.encode b.before) ++ 10 :: (b.octets ++ r) := by
    simp [LineBreak.headEnd, b.octets_eq]
  induction l with
  | nil =>
    obtain ⟨c, s, hs⟩ : ∃ c s, b.headEnd ++ r = c :: s :=
      List.exists_cons_of_ne_nil (by cases b <;> simp [LineBreak.headEnd, LineBreak.octets_eq])
    have hpre : b.headEnd.isPrefixOf (c :: s) = true := by
      rw [List.isPrefixOf_iff_prefix, ← hs]
      exact List.prefix_append _ _
    rw [List.nil_append, hs, cutAt?, if_pos hpre, ← hs, List.drop_left]
  | cons c l ih =>
    have hl' : 10 ∉ l := fun hm => hl (List.mem_cons_of_mem c hm)
    have hnot : b.headEnd.isPrefixOf (c :: l ++ (b.headEnd ++ r)) = false := by
      rw [htext]
      refine not_isPrefixOf_line ?_ fun he => ?_
      · rw [List.mem_append, not_or]
        exact ⟨hl, b.not_mem_before⟩
      · have hlen := congrArg List.length he
        simp only [List.cons_append, List.length_cons, List.length_append] at hlen
        omega
    rw [List.cons_append] at hnot ⊢
    rw [cutAt?, hnot, ih hl']
    rfl

theorem Solid.break_not_start (h : Solid l) (b : LineBreak) (r : Utf8.Octets) :
    ¬ b.octets <+: l ++ 10 :: r := by
  intro hstart
  obtain ⟨s, hs⟩ := hstart
  exact h.before b (eq_of_octets h.feed hs).1.symm

theorem fed_cons_append (m : Utf8.Octets) (ls : List Utf8.Octets) (r : Utf8.Octets) :
    fed (m :: ls) ++ r = m ++ 10 :: (fed ls ++ r) := by
  simp [fed]

theorem cutAt?_fed (b : LineBreak) {ls : List Utf8.Octets} (hls : ∀ m ∈ ls, Solid m)
    (hl : Solid l) (r : Utf8.Octets) : cutAt? b.headEnd (fed ls ++ (l ++ 10 :: r)) =
      (cutAt? b.headEnd (l ++ 10 :: r)).map fun c => (fed ls ++ c.1, c.2) := by
  induction ls with
  | nil => simp [fed]
  | cons m ls ih =>
    obtain ⟨hm, hrest⟩ := List.forall_mem_cons.1 hls
    have hnext : ¬ b.octets <+: fed ls ++ (l ++ 10 :: r) := by
      cases ls with
      | nil => exact hl.break_not_start b r
      | cons m' ls =>
        rw [fed_cons_append]
        exact (hrest m' List.mem_cons_self).break_not_start b _
    rw [fed_cons_append, cutAt?_line hm.feed fun _ => hnext, ih hrest, Option.map_map]
    simp [Function.comp_def, fed_cons_append]

theorem splitHead_eq (data : Utf8.Octets) : splitHead data =
    ((cutAt? LineBreak.crlf.headEnd data).or (cutAt? LineBreak.lf.headEnd data)).getD
      (data, []) := rfl

theorem eq_of_splitHead {data a back : Utf8.Octets} (h : splitHead data = (a, back)) :
    (data = a ∧ back = []) ∨ ∃ b : LineBreak, data = a ++ (b.headEnd ++ back) := by
  rw [splitHead_eq] at h
  cases hcrlf : cutAt? LineBreak.crlf.headEnd data with
  | some c =>
    rw [hcrlf, Option.some_or, Option.getD_some] at h
    exact Or.inr ⟨.crlf, eq_of_cutAt? (h ▸ hcrlf)⟩
  | none =>
    rw [hcrlf, Option.none_or] at h
    cases hlf : cutAt? LineBreak.lf.headEnd data with
    | some c =>
      rw [hlf, Option.getD_some] at h
      exact Or.inr ⟨.lf, eq_of_cutAt? (h ▸ hlf)⟩
    | none =>
      rw [hlf, Option.getD_none, Prod.mk.injEq] at h
      exact Or.inl ⟨h.1, h.2.symm⟩

theorem lines_cons {l : Text} (h : OneLine l) (t : Text) :
    lines (l ++ '\n' :: t) = stripReturn l :: lines t := by
  rw [lines, List.splitOn_append_cons_self_of_not_mem h]
  rfl

theorem lines_of_oneLine {l : Text} (h : OneLine l) : lines l = [stripReturn l] := by
  rw [lines, List.splitOn_eq_singleton h]
  rfl

theorem fields_blank (done : List (Text × Text)) (open? : Option (Text × Text))
    (ls more : List Text) : fields done open? (ls ++ [] :: more) = fields done open? ls := by
  induction ls generalizing done open? with
  | nil => simp [fields]
  | cons l ls ih =>
    rw [List.cons_append, fields.eq_def, fields.eq_def done open? (l :: ls)]
    simp only [ih]

theorem body_of_ofLines {start : Text} {ls : List Text} {body : Utf8.Octets} {m : Message}
    (h : ofLines start ls body = .ok m) (hm : m.headers.get? contentLength = none) :
    m.body = body := by
  rw [ofLines] at h
  cases hf : fields [] none ls with
  | error e => simp [hf, bind, Except.bind] at h
  | ok es =>
    cases hl : limitBody (Headers.ofList es) body with
    | error e => simp [hf, hl, bind, Except.bind] at h
    | ok limited =>
      simp only [hf, hl, bind, Except.bind] at h
      obtain ⟨hheaders, hbody⟩ := eq_of_ofParts h
      rw [limitBody, ← hheaders, hm, Except.ok.injEq] at hl
      rw [hbody, hl]

end Message

open Message

structure Line where
  text : Text
  ending : LineBreak
  ne_nil : text ≠ []
  oneLine : OneLine text
  return_last : text.getLast? ≠ some '\r'

namespace Line

def written (l : Line) : Text := l.text ++ l.ending.text

def octets (l : Line) : Utf8.Octets := Utf8.encode (l.text ++ l.ending.before)

theorem oneLine_before (l : Line) (b : LineBreak) : OneLine (l.text ++ b.before) := by
  have hb : OneLine b.before := by cases b <;> decide
  rw [Text.oneLine_append]
  exact ⟨l.oneLine, hb⟩

theorem stripReturn_before (l : Line) (b : LineBreak) :
    stripReturn (l.text ++ b.before) = l.text := by
  cases b with
  | crlf => simp [stripReturn, LineBreak.before]
  | lf => simp [stripReturn, LineBreak.before, l.return_last]

theorem return_not_suffix (l : Line) : ¬ Utf8.encode ['\r'] <:+ Utf8.encode l.text := by
  intro h
  obtain ⟨t, c, ht⟩ := (List.eq_nil_or_concat' l.text).resolve_left l.ne_nil
  have hc : 13 ∈ String.utf8EncodeChar c := by
    have hne : String.utf8EncodeChar c ≠ [] := by simp
    have htext : Utf8.encode l.text = Utf8.encode t ++ String.utf8EncodeChar c := by
      simp [ht, Utf8.encode]
    obtain ⟨s, hs⟩ := h
    have hlast := congrArg List.getLast? hs
    rw [htext, List.getLast?_append_of_ne_nil _ hne] at hlast
    exact List.mem_of_getLast? (hlast.symm.trans List.getLast?_concat)
  have hlast := l.return_last
  rw [ht, List.getLast?_concat, Utf8.eq_of_mem_encodeChar (by decide) hc] at hlast
  exact hlast rfl

theorem solid_octets (l : Line) : Solid l.octets := by
  refine ⟨Utf8.not_mem_encode (l.oneLine_before _), ?_⟩
  intro b he
  have htext : l.text ++ l.ending.before = b.before := by
    have hd := congrArg Utf8.decode? he
    rwa [octets, Utf8.decode?_encode, Utf8.decode?_encode, Option.some.injEq] at hd
  have hstrip := l.stripReturn_before l.ending
  rw [htext] at hstrip
  exact l.ne_nil (hstrip ▸ by cases b <;> rfl)

end Line

/-- A datagram as its sender writes it, with the break that it likes after each line of the head
and after the blank one. -/
structure Layout where
  start : Line
  fields : List Line
  blank : LineBreak
  body : Utf8.Octets
  return_first : start.text.head? ≠ some '\r'

namespace Layout

def lines (d : Layout) : List Line := d.start :: d.fields

def octets (d : Layout) : Utf8.Octets :=
  Utf8.encode (d.lines.flatMap Line.written ++ d.blank.text) ++ d.body

def last (d : Layout) : Line := d.lines.getLast (List.cons_ne_nil _ _)

/-- What stands in a datagram, whichever way the lines of its head end. -/
def message (d : Layout) : Except ParseError Message :=
  ofLines d.start.text (d.fields.map Line.text) d.body

/-- The end of the head is seen where it is, or there is nothing after it. -/
def Sound (d : Layout) : Prop :=
  d.body = [] ∨ (d.blank = .lf ∧ ¬ LineBreak.crlf.headEnd <:+: d.body) ∨
    (d.blank = .crlf ∧ d.last.ending = .crlf)

instance (d : Layout) : Decidable d.Sound :=
  inferInstanceAs (Decidable (_ ∨ (_ ∧ ¬ _) ∨ (_ ∧ _)))

theorem fed_octets (ls : List Line) :
    fed (ls.map Line.octets) = Utf8.encode (ls.flatMap Line.written) := by
  induction ls with
  | nil => rfl
  | cons l ls ih =>
    have hline : Utf8.encode l.written = l.octets ++ [10] := by
      rw [Line.written, Line.octets, LineBreak.text, ← List.append_assoc, Utf8.encode_append]
      rfl
    rw [List.flatMap_cons, Utf8.encode_append, ← ih, hline]
    simp [fed]

theorem lines_written (ls : List Line) (t : Text) :
    Message.lines (ls.flatMap Line.written ++ t) = ls.map Line.text ++ Message.lines t := by
  induction ls with
  | nil => rfl
  | cons l ls ih =>
    have hline : (l :: ls).flatMap Line.written ++ t =
        (l.text ++ l.ending.before) ++ '\n' :: (ls.flatMap Line.written ++ t) := by
      simp [Line.written, LineBreak.text]
    rw [hline, lines_cons (l.oneLine_before _), l.stripReturn_before, ih]
    rfl

theorem lines_eq (d : Layout) : ∃ front : List Line, d.lines = front ++ [d.last] :=
  ⟨_, (List.dropLast_append_getLast (List.cons_ne_nil d.start d.fields)).symm⟩

def Heads (d : Layout) (t : Text) : Prop :=
  Message.lines t = d.lines.map Line.text ∨
    ∃ more, Message.lines t = d.lines.map Line.text ++ [] :: more

theorem heads_last {d : Layout} {front : List Line} (h : d.lines = front ++ [d.last])
    (b : LineBreak) : d.Heads (front.flatMap Line.written ++ (d.last.text ++ b.before)) := by
  left
  rw [lines_written, lines_of_oneLine (d.last.oneLine_before b), d.last.stripReturn_before, h,
    List.map_append, List.map_singleton]

theorem octets_eq_cons (d : Layout) : ∃ b r, d.octets = b :: r ∧ b ≠ 13 ∧ b ≠ 10 := by
  obtain ⟨c, t, ht⟩ := List.exists_cons_of_ne_nil d.start.ne_nil
  obtain ⟨b, bs, hb⟩ : ∃ b bs, String.utf8EncodeChar c = b :: bs :=
    List.exists_cons_of_ne_nil (by simp)
  have hmem : b ∈ String.utf8EncodeChar c := hb ▸ List.mem_cons_self
  have hdata : d.octets = b :: (bs ++ (Utf8.encode (t ++ d.start.ending.text ++
      d.fields.flatMap Line.written ++ d.blank.text) ++ d.body)) := by
    simp [octets, lines, Line.written, ht, Utf8.encode_cons, hb]
  refine ⟨b, _, hdata, ?_, ?_⟩
  · intro he
    have hc := Utf8.eq_of_mem_encodeChar (he ▸ by decide) hmem
    exact d.return_first (by rw [ht, hc, he]; rfl)
  · intro he
    have hc := Utf8.eq_of_mem_encodeChar (he ▸ by decide) hmem
    exact d.start.oneLine (by rw [ht, hc, he]; exact List.mem_cons_self)

theorem parse_octets_eq (d : Layout) : parse d.octets =
    match Utf8.decode? (splitHead d.octets).1 with
    | none => .error .headNotUtf8
    | some t => ofLines ((Message.lines t).headD []) (Message.lines t).tail
        (splitHead d.octets).2 := by
  obtain ⟨b, r, hdata, hreturn, hfeed⟩ := d.octets_eq_cons
  have hskip : skipBreaks d.octets = d.octets := by
    rw [hdata, skipBreaks, List.dropWhile_cons_of_neg (by simp [hreturn, hfeed])]
  have hsome : d.octets.isEmpty = false := by rw [hdata, List.isEmpty_cons]
  rw [parse, hskip, hsome]
  rfl

theorem parse_of_heads {d : Layout} {t : Text} {back : Utf8.Octets}
    (h : splitHead d.octets = (Utf8.encode t, back)) (ht : d.Heads t) :
    parse d.octets = { d with body := back }.message := by
  have hfields : ofLines ((Message.lines t).headD []) (Message.lines t).tail back =
      { d with body := back }.message := by
    cases ht with
    | inl ht =>
      rw [ht]
      rfl
    | inr ht =>
      obtain ⟨more, ht⟩ := ht
      rw [ht, message, ofLines, ofLines]
      simp only [lines, List.map_cons, List.cons_append, List.headD_cons, List.tail_cons,
        fields_blank]
  rw [parse_octets_eq, h, Utf8.decode?_encode]
  exact hfields

def OpensBlank (a : Utf8.Octets) : Prop := a = [] ∨ a = [13] ∨ ∃ b : LineBreak, b.octets <+: a

theorem lines_of_opensBlank {a : Utf8.Octets} {t : Text} (ha : OpensBlank a)
    (h : Utf8.decode? a = some t) : ∃ more, Message.lines t = [] :: more := by
  have hreturn : Utf8.decode? [13] = some ['\r'] := by decide
  obtain rfl | rfl | ⟨b, c, rfl⟩ := ha
  · cases h
    exact ⟨[], rfl⟩
  · rw [hreturn, Option.some.injEq] at h
    exact h ▸ ⟨[], rfl⟩
  · rw [LineBreak.octets, Utf8.decode?_encode_append] at h
    obtain ⟨u, -, rfl⟩ := Option.map_eq_some_iff.1 h
    refine ⟨Message.lines u, ?_⟩
    rw [LineBreak.text, List.append_assoc]
    cases b with
    | crlf => exact lines_cons (by decide) u
    | lf => exact lines_cons (by decide) u

variable {d : Layout} {front : List Line}

theorem octets_eq_fed (h : d.lines = front ++ [d.last]) : d.octets =
    fed (front.map Line.octets) ++ (d.last.octets ++ 10 :: (d.blank.octets ++ d.body)) := by
  have hlines : Utf8.encode (d.lines.flatMap Line.written) =
      fed (front.map Line.octets) ++ (d.last.octets ++ [10]) := by
    rw [← fed_octets, h]
    simp [fed]
  rw [octets, Utf8.encode_append, hlines, LineBreak.octets]
  simp

theorem solid_front (front : List Line) : ∀ m ∈ front.map Line.octets, Solid m :=
  List.forall_mem_map.2 fun l _ => l.solid_octets

theorem cutAt?_octets {b : LineBreak}
    (hb : Utf8.encode b.before <:+ d.last.octets → ¬ b.octets <+: d.blank.octets ++ d.body) :
    cutAt? b.headEnd d.octets = (cutAt? b.headEnd (d.blank.octets ++ d.body)).map
      fun c => (Utf8.encode (d.lines.flatMap Line.written) ++ c.1, c.2) := by
  obtain ⟨front, hfront⟩ := d.lines_eq
  rw [octets_eq_fed hfront, cutAt?_fed b (solid_front front) d.last.solid_octets,
    cutAt?_line d.last.solid_octets.feed hb, Option.map_map, ← fed_octets, hfront]
  simp [fed, Function.comp_def]

theorem cutAt?_crlf_of_lf (h : d.blank = .lf) : cutAt? LineBreak.crlf.headEnd d.octets =
    (cutAt? LineBreak.crlf.headEnd d.body).map
      fun c => (Utf8.encode (d.lines.flatMap Line.written) ++ 10 :: c.1, c.2) := by
  have hnot : ¬ LineBreak.crlf.octets <+: d.blank.octets ++ d.body := by
    rw [h]
    intro hstart
    cases hstart with
    | intro s hs => cases hs
  have hblank : cutAt? LineBreak.crlf.headEnd ([] ++ 10 :: d.body) = _ :=
    cutAt?_line List.not_mem_nil fun hs => absurd (List.suffix_nil.1 hs) (by decide)
  rw [cutAt?_octets fun _ => hnot, h]
  change Option.map _ (cutAt? _ ([] ++ 10 :: d.body)) = _
  rw [hblank, Option.map_map]
  rfl

/-- The search for the break of the blank line finds it, if that of the line before is the same or
has it for its end. -/
theorem cutAt?_blank (hfront : d.lines = front ++ [d.last]) {l : Text} (hl : OneLine l)
    (h : l ++ d.blank.before = d.last.text ++ d.last.ending.before) :
    cutAt? d.blank.headEnd d.octets =
      some (Utf8.encode (front.flatMap Line.written ++ l), d.body) := by
  have hrest : d.last.octets ++ 10 :: (d.blank.octets ++ d.body) =
      Utf8.encode l ++ (d.blank.headEnd ++ d.body) := by
    rw [Line.octets, ← h, LineBreak.headEnd, Utf8.encode_append]
    simp [LineBreak.octets_eq]
  rw [octets_eq_fed hfront, cutAt?_fed _ (solid_front front) d.last.solid_octets, hrest,
    cutAt?_headEnd _ (Utf8.not_mem_encode hl), fed_octets, Option.map_some, Utf8.encode_append]

theorem heads_of_opensBlank {a : Utf8.Octets} {t : Text} (ha : OpensBlank a)
    (h : Utf8.decode? a = some t) : d.Heads (d.lines.flatMap Line.written ++ t) := by
  obtain ⟨more, hmore⟩ := lines_of_opensBlank ha h
  exact Or.inr ⟨more, by rw [lines_written, hmore]⟩

/-- A blank line of the other break is passed over. -/
theorem splitHead_lf_crlf (hlast : d.last.ending = .lf) (hblank : d.blank = .crlf) :
    splitHead d.octets = (Utf8.encode (d.lines.flatMap Line.written) ++
      (splitHead (d.blank.octets ++ d.body)).1, (splitHead (d.blank.octets ++ d.body)).2) := by
  have hcut (b : LineBreak) : cutAt? b.headEnd d.octets =
      (cutAt? b.headEnd (d.blank.octets ++ d.body)).map
        fun c => (Utf8.encode (d.lines.flatMap Line.written) ++ c.1, c.2) := by
    apply cutAt?_octets
    intro hline hstart
    cases b with
    | crlf =>
      have hnone : LineBreak.lf.before = [] := rfl
      rw [Line.octets, hlast, hnone, List.append_nil] at hline
      exact d.last.return_not_suffix hline
    | lf =>
      rw [hblank] at hstart
      cases hstart with
      | intro s hs => cases hs
  have hdata : d.octets = Utf8.encode (d.lines.flatMap Line.written) ++
      (d.blank.octets ++ d.body) := by
    rw [octets, Utf8.encode_append, List.append_assoc, LineBreak.octets]
  rw [splitHead_eq, splitHead_eq, hcut, hcut]
  cases cutAt? LineBreak.crlf.headEnd (d.blank.octets ++ d.body) with
  | some c => rfl
  | none =>
    cases cutAt? LineBreak.lf.headEnd (d.blank.octets ++ d.body) with
    | some c => rfl
    | none => simp [hdata]

theorem splitHead_of_sound (h : d.Sound) :
    ∃ t, splitHead d.octets = (Utf8.encode t, d.body) ∧ d.Heads t := by
  obtain ⟨front, hfront⟩ := d.lines_eq
  cases hblank : d.blank with
  | lf =>
    have hbody : ¬ LineBreak.crlf.headEnd <:+: d.body := by
      obtain hnil | ⟨-, hno⟩ | ⟨hcrlf, -⟩ := h
      · rw [hnil, List.infix_nil]
        decide
      · exact hno
      · rw [hblank] at hcrlf
        cases hcrlf
    have hcrlf : cutAt? LineBreak.crlf.headEnd d.octets = none := by
      rw [cutAt?_crlf_of_lf hblank, (cutAt?_eq_none_iff (by decide)).2 hbody, Option.map_none]
    have hcut := cutAt?_blank hfront (d.last.oneLine_before d.last.ending)
      (by rw [hblank, LineBreak.before, List.append_nil])
    rw [hblank] at hcut
    refine ⟨_, ?_, heads_last hfront d.last.ending⟩
    rw [splitHead_eq, hcrlf, hcut]
    rfl
  | crlf =>
    cases hlast : d.last.ending with
    | crlf =>
      have hcut := cutAt?_blank hfront d.last.oneLine (by rw [hblank, hlast])
      rw [hblank] at hcut
      refine ⟨_, ?_, heads_last hfront .lf⟩
      rw [splitHead_eq, hcut, LineBreak.before, List.append_nil]
      rfl
    | lf =>
      -- A bare feed and then a blank line of both characters end no head, so no body is read.
      have hbody : d.body = [] := by simpa [Sound, hlast, hblank] using h
      refine ⟨d.lines.flatMap Line.written ++ d.blank.text, ?_, ?_⟩
      · rw [splitHead_lf_crlf hlast hblank, hbody, hblank, Utf8.encode_append]
        rfl
      · exact heads_of_opensBlank (Or.inr (Or.inr ⟨d.blank, List.prefix_refl _⟩))
          (Utf8.decode?_encode _)

theorem suffix_of_eq {t x back : Utf8.Octets} (h : t = x ++ back) (hx : x ≠ []) :
    back <:+ t ∧ back ≠ t :=
  ⟨⟨x, h.symm⟩, fun he => hx (List.self_eq_append_left.1 (he.trans h))⟩

/-- A search that starts at a blank line finds no end there, and so loses some of the body. -/
theorem opensBlank_of_splitHead {body a back : Utf8.Octets} (hbody : body ≠ [])
    (h : splitHead (LineBreak.crlf.octets ++ body) = (a, back)) :
    OpensBlank a ∧ back <:+ body ∧ back ≠ body := by
  have hoctets : LineBreak.crlf.octets = [13, 10] := by decide
  obtain ⟨rfl, rfl⟩ | ⟨b, hb⟩ := eq_of_splitHead h
  · exact ⟨Or.inr (Or.inr ⟨.crlf, List.prefix_append _ _⟩), List.nil_suffix, hbody.symm⟩
  · rw [hoctets] at hb
    match a with
    | [] =>
      refine ⟨Or.inl rfl, ?_⟩
      cases b with
      | crlf =>
        have hrest : body = [13, 10] ++ back := by simpa [LineBreak.headEnd, hoctets] using hb
        exact suffix_of_eq hrest (by simp)
      | lf => cases hb
    | [x] =>
      simp only [List.cons_append, List.nil_append, List.cons.injEq] at hb
      refine ⟨Or.inr (Or.inl (by rw [hb.1])), ?_⟩
      cases b with
      | crlf => cases hb.2
      | lf =>
        have hrest : body = [10] ++ back := (List.cons.inj hb.2).2
        exact suffix_of_eq hrest (by simp)
    | x :: y :: a =>
      simp only [List.cons_append, List.cons.injEq, List.nil_append] at hb
      obtain ⟨rfl, rfl, hrest⟩ := hb
      refine ⟨Or.inr (Or.inr ⟨.crlf, a, congrArg (· ++ a) hoctets⟩), ?_⟩
      rw [← List.append_assoc] at hrest
      exact suffix_of_eq hrest (by cases b <;> simp [LineBreak.headEnd, LineBreak.octets_eq])

theorem splitHead_of_not_sound (h : ¬ d.Sound) : ∃ a back,
    splitHead d.octets = (Utf8.encode (d.lines.flatMap Line.written) ++ a, back) ∧
      OpensBlank a ∧ back <:+ d.body ∧ back ≠ d.body := by
  cases hblank : d.blank with
  | lf =>
    have hbody : LineBreak.crlf.headEnd <:+: d.body := by
      apply Decidable.byContradiction
      intro hno
      exact h (Or.inr (Or.inl ⟨hblank, hno⟩))
    obtain ⟨f, hf⟩ := Option.ne_none_iff_exists'.1
      fun hn => (cutAt?_eq_none_iff (by decide)).1 hn hbody
    refine ⟨10 :: f.1, f.2, ?_, Or.inr (Or.inr ⟨.lf, f.1, rfl⟩), ?_⟩
    · rw [splitHead_eq, cutAt?_crlf_of_lf hblank, hf]
      rfl
    · have hrest := eq_of_cutAt? hf
      rw [← List.append_assoc] at hrest
      exact suffix_of_eq hrest (by simp [LineBreak.headEnd, LineBreak.octets_eq])
  | crlf =>
    cases hlast : d.last.ending with
    | crlf => exact absurd (Or.inr (Or.inr ⟨hblank, hlast⟩)) h
    | lf =>
      have hbody : d.body ≠ [] := fun hnil => h (Or.inl hnil)
      exact ⟨_, _, splitHead_lf_crlf hlast hblank,
        opensBlank_of_splitHead hbody (by rw [hblank])⟩

theorem parse_of_sound (h : d.Sound) : parse d.octets = d.message := by
  obtain ⟨t, hsplit, ht⟩ := splitHead_of_sound h
  exact parse_of_heads hsplit ht

theorem parse_of_not_sound (h : ¬ d.Sound) : ∃ back, back <:+ d.body ∧ back ≠ d.body ∧
    (parse d.octets = .error .headNotUtf8 ∨ parse d.octets = { d with body := back }.message) := by
  obtain ⟨a, back, hsplit, ha, hback, hne⟩ := splitHead_of_not_sound h
  refine ⟨back, hback, hne, ?_⟩
  cases hdecode : Utf8.decode? a with
  | none =>
    left
    rw [parse_octets_eq, hsplit, Utf8.decode?_encode_append, hdecode]
    rfl
  | some t =>
    right
    rw [Utf8.eq_encode_of_decode? hdecode, ← Utf8.encode_append] at hsplit
    exact parse_of_heads hsplit (heads_of_opensBlank ha hdecode)

/-- The datagram with CRLF everywhere. -/
def uniform (d : Layout) : Layout :=
  { d with
    start := { d.start with ending := .crlf }
    fields := d.fields.map fun l => { l with ending := .crlf }
    blank := .crlf }

theorem parse_uniform (d : Layout) : parse d.uniform.octets = d.message := by
  have hlast : d.uniform.last.ending = .crlf := by
    have hall : ∀ l ∈ d.uniform.lines, l.ending = .crlf := by
      rw [lines, List.forall_mem_cons]
      exact ⟨rfl, List.forall_mem_map.2 fun _ _ => rfl⟩
    exact hall _ (List.getLast_mem _)
  have hsound : d.uniform.Sound := Or.inr (Or.inr ⟨rfl, hlast⟩)
  have hfields : d.uniform.fields.map Line.text = d.fields.map Line.text := by
    rw [uniform, List.map_map]
    rfl
  rw [parse_of_sound hsound, message, hfields]
  rfl

/-- The breaks make no difference where the end of the head is seen. Elsewhere less is read than
with CRLF everywhere: a shorter body, or no message at all. So what is not cut to its
Content-Length is read alike in the first case only. -/
theorem parse_octets (d : Layout) :
    (d.Sound → parse d.octets = parse d.uniform.octets) ∧
      (¬ d.Sound → ∃ back, back <:+ d.body ∧ back ≠ d.body ∧
        (parse d.octets = .error .headNotUtf8 ∨
          parse d.octets = parse { d with body := back }.uniform.octets)) ∧
      ∀ m, parse d.uniform.octets = .ok m → m.headers.get? contentLength = none →
        (parse d.octets = .ok m ↔ d.Sound) := by
  simp only [parse_uniform]
  refine ⟨parse_of_sound, parse_of_not_sound, ?_⟩
  intro m hm hsize
  constructor
  · intro hparse
    apply Decidable.byContradiction
    intro hsound
    obtain ⟨back, -, hne, herror | hback⟩ := parse_of_not_sound hsound
    · rw [herror] at hparse
      cases hparse
    · have hbody := body_of_ofLines (hback ▸ hparse) hsize
      rw [body_of_ofLines hm hsize] at hbody
      exact hne hbody.symm
  · intro hsound
    rw [parse_of_sound hsound, hm]

def subject (blank : LineBreak) (body : String) : Layout where
  start := ⟨"MESSAGE sip:a@b SIP/2.0".toList, .lf, by decide, by decide, by decide⟩
  fields := [⟨"Subject: x".toList, .lf, by decide, by decide, by decide⟩]
  blank := blank
  body := Utf8.encode body.toList
  return_first := by decide

end Layout

/-- Two layouts that are not sound: a blank line in LF before a body with CRLF CRLF in it, and one
in CRLF after a line in LF. -/
theorem Message.parse_short :
    let head := "MESSAGE sip:a@b SIP/2.0".toList
    let request (body : Text) := Message.request
      ⟨"MESSAGE".toList, "sip:a@b".toList, ⟨[("subject".toList, ['x'])]⟩, Utf8.encode body⟩
    let inBody := Layout.subject .lf "one\r\n\r\ntwo"
    let mixed := Layout.subject .crlf "hello"
    (¬ inBody.Sound ∧
      inBody.octets = Utf8.encode (head ++ "\nSubject: x\n\none\r\n\r\ntwo".toList) ∧
      parse inBody.octets = .ok (request "two".toList) ∧
      inBody.uniform.octets =
        Utf8.encode (head ++ "\r\nSubject: x\r\n\r\none\r\n\r\ntwo".toList) ∧
      parse inBody.uniform.octets = .ok (request "one\r\n\r\ntwo".toList)) ∧
    ¬ mixed.Sound ∧
      mixed.octets = Utf8.encode (head ++ "\nSubject: x\n\r\nhello".toList) ∧
      parse mixed.octets = .ok (request []) ∧
      mixed.uniform.octets = Utf8.encode (head ++ "\r\nSubject: x\r\n\r\nhello".toList) ∧
      parse mixed.uniform.octets = .ok (request "hello".toList) := by
  decide +kernel

end SipTestbed
