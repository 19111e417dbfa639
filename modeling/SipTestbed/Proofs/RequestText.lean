import SipTestbed.Proofs.RoundTrip

/-! Requests as their senders write them: a start line, fields whose values may go on over several
lines, and a body that a Content-Length may cut short. They are read as they were meant, unless the
first Content-Length is no number. -/
namespace SipTestbed

open Text (OneLine)

namespace Text

structure Word (t : Text) : Prop where
  ne_nil : t ≠ []
  plain : ∀ c ∈ t, isBlank c = false

instance (t : Text) : Decidable t.Word :=
  decidable_of_iff (t ≠ [] ∧ t.all (fun c => !isBlank c) = true)
    ⟨fun ⟨hne, hall⟩ => ⟨hne, by simpa using hall⟩, fun h => ⟨h.ne_nil, by simpa using h.plain⟩⟩

theorem Word.oneLine {t : Text} (h : t.Word) : OneLine t := by
  intro hm
  cases h.plain '\n' hm

theorem Word.endsPlain {t : Text} (h : t.Word) : EndsPlain t :=
  fun c hc => h.plain c (List.mem_of_getLast? hc)

theorem words_three {a b c : Text} (ha : a.Word) (hb : b.Word) (hc : c.Word) :
    words (a ++ ' ' :: (b ++ ' ' :: c)) = [a, b, c] := by
  rw [words, List.splitOnP_append_cons_of_forall_mem ha.plain ' ' (by decide),
    List.splitOnP_append_cons_of_forall_mem hb.plain ' ' (by decide),
    List.splitOnP_eq_singleton hc.plain]
  simp [ha.ne_nil, hb.ne_nil, hc.ne_nil]

end Text

structure Segment where
  text : Text
  ne_nil : text ≠ []
  neat : text.Neat

/-- A further part of a value, on a line that continues the one before. -/
structure Fold where
  indent : Text
  segment : Segment
  ne_nil : indent ≠ []
  blank : ∀ c ∈ indent, c = ' ' ∨ c = '\t'

structure Field where
  name : Text
  first : Segment
  more : List Fold
  neat : name.Neat
  colon : ':' ∉ name

def Line.plain (t : Text) (hne : t ≠ []) (hline : OneLine t) (hend : t.EndsPlain) : Line where
  text := t
  ending := .crlf
  ne_nil := hne
  oneLine := hline
  return_last h := by cases hend '\r' h

theorem Line.isEmpty_text (l : Line) : l.text.isEmpty = false := by
  rw [List.isEmpty_eq_false_iff]
  exact l.ne_nil

theorem Segment.endsPlain (s : Segment) : s.text.EndsPlain := Text.endsPlain_of_trim s.neat.trimmed

namespace Fold

theorem oneLine_indent (f : Fold) : OneLine f.indent := by
  intro hm
  cases f.blank '\n' hm <;> contradiction

def line (f : Fold) : Line :=
  .plain (f.indent ++ f.segment.text) (by simp [f.ne_nil])
    (Text.oneLine_append.2 ⟨f.oneLine_indent, f.segment.neat.line⟩)
    (f.segment.endsPlain.append_of_ne_nil f.segment.ne_nil _)

@[simp] theorem text_line (f : Fold) : f.line.text = f.indent ++ f.segment.text := rfl

end Fold

namespace Field

def firstLine (f : Field) : Line :=
  .plain (f.name ++ ": ".toList ++ f.first.text) (by simp)
    (by simp [f.neat.line, f.first.neat.line])
    (f.first.endsPlain.append_of_ne_nil f.first.ne_nil _)

@[simp] theorem text_firstLine (f : Field) :
    f.firstLine.text = f.name ++ ": ".toList ++ f.first.text := rfl

def lines (f : Field) : List Line := f.firstLine :: f.more.map Fold.line

def value (f : Field) : Text :=
  [' '].intercalate (f.first.text :: f.more.map fun x => x.segment.text)

def entry (f : Field) : Text × Text := (Headers.normalise f.name, f.value)

end Field

/-- A request as its sender writes it. -/
structure Draft where
  breaks : Utf8.Octets
  method : Text
  uri : Text
  version : Text
  fields : List Field
  body : Utf8.Octets
  breaks_only : ∀ b ∈ breaks, b = 13 ∨ b = 10
  word_method : method.Word
  word_uri : uri.Word
  word_version : version.Word
  not_response : Message.isVersion method = false
  isVersion : Message.isVersion version = true

namespace Draft

def startText (d : Draft) : Text := d.method ++ ' ' :: (d.uri ++ ' ' :: d.version)

def start (d : Draft) : Line :=
  .plain d.startText (by simp [startText])
    (by simp [startText, d.word_method.oneLine, d.word_uri.oneLine, d.word_version.oneLine])
    (by
      have hversion := d.word_version.endsPlain
      simpa [startText] using hversion.append_of_ne_nil d.word_version.ne_nil
        (d.method ++ ' ' :: (d.uri ++ [' '])))

def layout (d : Draft) : Layout where
  start := d.start
  fields := d.fields.flatMap Field.lines
  blank := .crlf
  body := d.body
  return_first h := by
    have hhead : d.start.text.head? = d.method.head? :=
      List.head?_append_of_ne_nil _ d.word_method.ne_nil
    cases d.word_method.plain '\r' (List.mem_of_head? (hhead ▸ h))

def octets (d : Draft) : Utf8.Octets := d.breaks ++ d.layout.octets

/-- The value of the first field that tells the size of the body. -/
def size? (d : Draft) : Option Text :=
  (d.fields.find? fun f => Headers.normalise f.name == contentLength).map Field.value

/-- What is meant, with as much of the body as is read. -/
def request (d : Draft) (body : Utf8.Octets) : Request :=
  ⟨d.method, d.uri, ⟨d.fields.map Field.entry⟩, body⟩

end Draft

namespace Message

theorem fields_fold (done : List (Text × Text)) (n v : Text) (f : Fold) (ls : List Text) :
    fields done (some (n, v)) (f.line.text :: ls) =
      fields done (some (n, v ++ ' ' :: f.segment.text)) ls := by
  obtain ⟨c, indent, hindent⟩ := List.exists_cons_of_ne_nil f.ne_nil
  have hfold : isFold f.line.text = true := by
    have hc : c = ' ' ∨ c = '\t' := f.blank c (hindent ▸ List.mem_cons_self)
    obtain rfl | rfl := hc <;> simp [isFold, hindent]
  have hblank : ∀ d ∈ f.indent, Text.isBlank d = true := by
    intro d hd
    obtain rfl | rfl := f.blank d hd <;> decide
  have htrim : Text.trim f.line.text = f.segment.text := by
    rw [f.text_line, Text.trim_append_of_blank hblank, f.segment.neat.trimmed]
  rw [fields, f.line.isEmpty_text, hfold, htrim]
  simp

theorem fields_folds (done : List (Text × Text)) (n v : Text) (more : List Fold) (ls : List Text) :
    fields done (some (n, v)) ((more.map fun f => f.line.text) ++ ls) =
      fields done (some (n, [' '].intercalate (v :: more.map fun f => f.segment.text))) ls := by
  induction more generalizing v with
  | nil => simp [List.intercalate]
  | cons f more ih =>
    have hvalue : [' '].intercalate ((v ++ ' ' :: f.segment.text) ::
          more.map fun f => f.segment.text) =
        [' '].intercalate (v :: (f :: more).map fun f => f.segment.text) := by
      cases more <;> simp [List.intercalate]
    rw [List.map_cons, List.cons_append, fields_fold, ih, hvalue]

theorem fields_field (done : List (Text × Text)) (open? : Option (Text × Text)) (f : Field)
    (ls : List Text) : fields done open? (f.lines.map Line.text ++ ls) =
      fields (done ++ open?.toList) (some (f.name, f.value)) ls := by
  have hname : Text.trim (Text.lower f.name) = Text.lower f.name := by
    rw [Text.trim_lower, f.neat.trimmed]
  rw [Field.lines, List.map_cons, List.cons_append, f.text_firstLine, fields_named f.colon hname,
    f.neat.trimmed, f.first.neat.trimmed, List.map_map]
  exact fields_folds _ _ _ _ _

theorem fields_drafted (done : List (Text × Text)) (open? : Option (Text × Text))
    (fs : List Field) : fields done open? ((fs.flatMap Field.lines).map Line.text) =
      .ok (done ++ open?.toList ++ fs.map fun f => (f.name, f.value)) := by
  induction fs generalizing done open? with
  | nil => simp [fields]
  | cons f fs ih =>
    rw [List.flatMap_cons, List.map_append, fields_field, ih]
    simp

end Message

namespace Field

theorem trim_value (f : Field) : Text.trim f.value = f.value := by
  have hparts : ∀ t ∈ f.first.text :: f.more.map fun x => x.segment.text,
      t ≠ [] ∧ Text.trim t = t := by
    rw [List.forall_mem_cons, List.forall_mem_map]
    exact ⟨⟨f.first.ne_nil, f.first.neat.trimmed⟩,
      fun x _ => ⟨x.segment.ne_nil, x.segment.neat.trimmed⟩⟩
  refine (Text.trim_intercalate_iff fun t ht => (hparts t ht).2).2 fun hne => ?_
  exact ⟨f.first.ne_nil, (hparts _ (List.mem_cons_of_mem _ (List.getLast_mem hne))).1⟩

end Field

namespace Message

theorem skipBreaks_append {s : Utf8.Octets} (hs : ∀ b ∈ s, b = 13 ∨ b = 10) (t : Utf8.Octets) :
    skipBreaks (s ++ t) = skipBreaks t := by
  apply List.dropWhile_append_of_pos
  intro b hb
  simpa using hs b hb

theorem parse_append_breaks {s : Utf8.Octets} (hs : ∀ b ∈ s, b = 13 ∨ b = 10)
    (t : Utf8.Octets) : parse (s ++ t) = parse t := by
  rw [parse, skipBreaks_append hs, parse]

theorem isPrefixOf_append_cons {p : Text} {c : Char} (hc : c ∉ p) (t rest : Text) :
    p.isPrefixOf (t ++ c :: rest) = p.isPrefixOf t := by
  induction p generalizing t with
  | nil => simp
  | cons d p ih =>
    obtain ⟨hd, hp⟩ := not_or.1 (mt List.mem_cons.2 hc)
    cases t with
    | nil => simp [List.isPrefixOf, Ne.symm hd]
    | cons e t => simp [List.isPrefixOf, ih hp]

end Message

namespace Draft

open Message

theorem ofParts_drafted (d : Draft) (hs : Headers) (body : Utf8.Octets) :
    ofParts d.startText hs body = .ok (.request ⟨d.method, d.uri, hs, body⟩) := by
  have hwords : Text.words d.startText = [d.method, d.uri, d.version] :=
    Text.words_three d.word_method d.word_uri d.word_version
  have hstart : Message.isVersion d.startText = false :=
    (isPrefixOf_append_cons (by decide) _ _).trans d.not_response
  simp [ofParts, hstart, hwords, d.isVersion]

theorem limitBody_drafted (d : Draft) : limitBody ⟨d.fields.map Field.entry⟩ d.body =
    match d.size? with
    | none => .ok d.body
    | some v =>
      match Decimal.readU64? v with
      | none => .error (.contentLength v)
      | some n => .ok (d.body.take n) := by
  have hnormal : Headers.normalise contentLength = contentLength := by decide
  have hget : Headers.get? ⟨d.fields.map Field.entry⟩ contentLength = d.size? := by
    rw [Headers.get?, hnormal, List.find?_map, Option.map_map]
    rfl
  have htrim : ∀ v, d.size? = some v → Text.trim v = v := by
    intro v hv
    obtain ⟨f, -, rfl⟩ := Option.map_eq_some_iff.1 hv
    exact f.trim_value
  rw [limitBody, hget]
  cases hv : d.size? with
  | none => rfl
  | some v =>
    cases hn : Decimal.readU64? v <;> simp [htrim v hv, hn]

theorem layout_sound (d : Draft) : d.layout.Sound := by
  have hlines : ∀ l ∈ d.layout.lines, l.ending = .crlf := by
    rw [Layout.lines, List.forall_mem_cons]
    refine ⟨rfl, fun l hl => ?_⟩
    obtain ⟨f, -, hl⟩ := List.mem_flatMap.1 hl
    obtain rfl | hl := List.mem_cons.1 hl
    · rfl
    · obtain ⟨x, -, rfl⟩ := List.mem_map.1 hl
      rfl
  exact Or.inr (Or.inr ⟨rfl, hlines _ (List.getLast_mem _)⟩)

theorem parse_octets_eq (d : Draft) : Message.parse d.octets =
    match d.size? with
    | none => .ok (.request (d.request d.body))
    | some v =>
      match Decimal.readU64? v with
      | none => .error (.contentLength v)
      | some n => .ok (.request (d.request (d.body.take n))) := by
  have hfields : Message.fields [] none (d.layout.fields.map Line.text) =
      .ok (d.fields.map fun f => (f.name, f.value)) := fields_drafted [] none d.fields
  have hentries : Headers.ofList (d.fields.map fun f => (f.name, f.value)) =
      ⟨d.fields.map Field.entry⟩ := by
    have hmap := Headers.entries_ofList (d.fields.map fun f => (f.name, f.value))
    rw [List.map_map] at hmap
    exact congrArg Headers.mk hmap
  have hlimit : limitBody ⟨d.fields.map Field.entry⟩ d.layout.body = _ := d.limitBody_drafted
  have hstart (body : Utf8.Octets) : ofParts d.layout.start.text ⟨d.fields.map Field.entry⟩ body =
      .ok (.request (d.request body)) := d.ofParts_drafted _ body
  rw [octets, parse_append_breaks d.breaks_only, Layout.parse_of_sound d.layout_sound,
    Layout.message, ofLines, hfields]
  simp only [bind, Except.bind, hentries, hlimit]
  cases d.size? with
  | none => exact hstart d.body
  | some v =>
    cases hn : Decimal.readU64? v with
    | none => simp only [hn]
    | some n => simpa only [hn] using hstart (d.body.take n)

/-- A draft is read with its fields in order, under their kept names and with blanks between the
parts of a value, and with the body as far as its first Content-Length says. Nothing but such a
value that is no number is refused, and what stands behind the octets that it counts makes no
difference. -/
theorem parse_draft (d : Draft) :
    Message.parse d.octets =
        (match d.size? with
        | none => .ok (.request (d.request d.body))
        | some v =>
          match Decimal.readU64? v with
          | none => .error (.contentLength v)
          | some n => .ok (.request (d.request (d.body.take n)))) ∧
      ((∃ e, Message.parse d.octets = .error e) ↔
        ∃ v, d.size? = some v ∧ Decimal.readU64? v = none) ∧
      ∀ v n body, d.size? = some v → Decimal.readU64? v = some n → body.take n = d.body.take n →
        Message.parse { d with body := body }.octets = Message.parse d.octets := by
  refine ⟨d.parse_octets_eq, ?_, ?_⟩
  · rw [parse_octets_eq]
    cases d.size? with
    | none => simp
    | some v => cases hn : Decimal.readU64? v <;> simp [hn]
  · intro v n body hv hn hbody
    have hv' : { d with body := body }.size? = some v := hv
    rw [parse_octets_eq, parse_octets_eq, hv, hv']
    simp only [hn, hbody]
    rfl

theorem parse_draft_folded :
    let segment (c : Char) (h : c ≠ '\n' ∧ Text.trim [c] = [c]) : Segment :=
      ⟨[c], by simp, by simpa using h.1, h.2⟩
    let d : Draft :=
      { breaks := [13, 10, 10]
        method := "MESSAGE".toList
        uri := "sip:a@b".toList
        version := "SIP/2.0".toList
        fields := [
          ⟨"S".toList, segment 'x' (by decide), [⟨[' '], segment ':' (by decide), by decide,
            by simp⟩, ⟨['\t', ' '], segment 'y' (by decide), by decide, by simp⟩],
            ⟨by decide, by decide⟩, by decide⟩,
          ⟨[], segment 'z' (by decide), [], ⟨by decide, by decide⟩, by decide⟩,
          ⟨"L".toList, segment '5' (by decide), [], ⟨by decide, by decide⟩, by decide⟩]
        body := Utf8.encode "a\r\n\r\nbc".toList
        breaks_only := by simp
        word_method := by decide
        word_uri := by decide
        word_version := by decide
        not_response := by decide
        isVersion := by decide }
    d.octets = [13, 10, 10] ++ Utf8.encode
        "MESSAGE sip:a@b SIP/2.0\r\nS: x\r\n :\r\n\t y\r\n: z\r\nL: 5\r\n\r\na\r\n\r\nbc".toList ∧
      Message.parse d.octets = .ok (.request ⟨"MESSAGE".toList, "sip:a@b".toList,
        ⟨[("subject".toList, "x : y".toList), ([], ['z']), (contentLength, ['5'])]⟩,
        Utf8.encode "a\r\n\r\n".toList⟩) ∧
      Message.parse { d with body := d.body ++ [255] }.octets = Message.parse d.octets := by
  intro segment d
  exact ⟨by decide, (parse_draft d).1.trans (by decide),
    (parse_draft d).2.2 ['5'] 5 (d.body ++ [255]) (by decide) (by decide) (by decide)⟩

end Draft
end SipTestbed
