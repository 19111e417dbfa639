import SipTestbed.Proofs.RoundTrip

/-! Responses that were read are printed and read again. All comes back as it was but for the values
of folded fields: each line of such a value is trimmed, but not what is put together of them, so that
a blank line at either end of it leaves a blank that the second reading takes off. -/
namespace SipTestbed

open Text (OneLine)

namespace Message

/-- A line of a head with the lines that continue it. -/
structure Block where
  line : Text
  folds : List Text

namespace Block

def halves (b : Block) : Text × Text := (Text.cut? ':' b.line).getD (b.line, [])

def name (b : Block) : Text := Text.trim b.halves.1

def first (b : Block) : Text := Text.trim b.halves.2

def value (b : Block) : Text := [' '].intercalate (b.first :: b.folds.map Text.trim)

def entry (b : Block) : Text × Text := (b.name, b.value)

/-- Of a value on several lines, neither the first part nor the last is blank. -/
def Snug (b : Block) : Prop :=
  ∀ h : b.folds ≠ [], b.first ≠ [] ∧ Text.trim (b.folds.getLast h) ≠ []

instance (b : Block) : Decidable b.Snug :=
  inferInstanceAs
    (Decidable (∀ h : b.folds ≠ [], b.first ≠ [] ∧ Text.trim (b.folds.getLast h) ≠ []))

theorem colon_not_mem_name (b : Block) : ':' ∉ b.name := by
  intro hm
  have hhalf := Text.mem_of_mem_trimBy hm
  rw [halves] at hhalf
  cases hcut : Text.cut? ':' b.line with
  | none =>
    rw [hcut] at hhalf
    exact Text.cut?_eq_none_iff.1 hcut hhalf
  | some nv =>
    rw [hcut] at hhalf
    exact (Text.cut?_eq_some_iff.1 hcut).2 hhalf

theorem oneLine_name {b : Block} (h : OneLine b.line) : OneLine b.name := by
  apply OneLine.trim
  rw [halves]
  cases hcut : Text.cut? ':' b.line with
  | none => exact h
  | some nv => exact (h.cut? hcut).1

theorem trim_value_iff (b : Block) : Text.trim b.value = b.value ↔ b.Snug := by
  have hparts : ∀ t ∈ b.first :: b.folds.map Text.trim, Text.trim t = t := by
    rw [List.forall_mem_cons, List.forall_mem_map]
    exact ⟨Text.trim_trim _, fun t _ => Text.trim_trim t⟩
  rw [value, Text.trim_intercalate_iff hparts, Snug]
  simp [List.getLast_map]

end Block

/-- Lines up to the first empty one, with those that continue another put to it. -/
def blocks : List Text → List Block
  | [] => []
  | l :: ls =>
    if l.isEmpty then []
    else if isFold l then blocks ls
    else ⟨l, ls.takeWhile isFold⟩ :: blocks ls

theorem line_mem_of_mem_blocks {ls : List Text} {b : Block} (h : b ∈ blocks ls) : b.line ∈ ls := by
  induction ls with
  | nil => simp [blocks] at h
  | cons l ls ih =>
    rw [blocks] at h
    split at h
    · simp at h
    · split at h
      · exact List.mem_cons_of_mem l (ih h)
      · obtain rfl | h := List.mem_cons.1 h
        · exact List.mem_cons_self
        · exact List.mem_cons_of_mem l (ih h)

theorem fields_eq_blocks {ls : List Text} {done es : List (Text × Text)}
    {open? : Option (Text × Text)} (h : fields done open? ls = .ok es) :
    es = done ++ (open?.map fun nv =>
      (nv.1, [' '].intercalate (nv.2 :: (ls.takeWhile isFold).map Text.trim))).toList ++
        (blocks ls).map Block.entry := by
  -- The lines that continue an open field come first, and the blocks begin behind them.
  induction ls generalizing done open? with
  | nil =>
    rw [fields, Except.ok.injEq] at h
    cases open? <;> simp [← h, blocks, List.intercalate]
  | cons l ls ih =>
    unfold fields at h
    split at h
    · rename_i hempty
      have hfold : isFold l = false := by
        rw [List.isEmpty_iff.1 hempty]
        rfl
      rw [Except.ok.injEq] at h
      cases open? <;> simp [← h, blocks, hempty, hfold, List.intercalate]
    · rename_i hempty
      split at h
      · rename_i hfold
        cases open? with
        | none => cases h
        | some nv =>
          obtain ⟨n, v⟩ := nv
          have hvalue : [' '].intercalate ((v ++ [' '] ++ Text.trim l) ::
                (ls.takeWhile isFold).map Text.trim) =
              [' '].intercalate (v :: ((l :: ls).takeWhile isFold).map Text.trim) := by
            rw [List.takeWhile_cons_of_pos hfold]
            cases ls.takeWhile isFold <;> simp [List.intercalate]
          rw [ih h, Option.map_some, hvalue, blocks, if_neg hempty, if_pos hfold]
          rfl
      · rename_i hfold
        cases hcut : Text.cut? ':' l with
        | none => simp [hcut] at h
        | some nv =>
          obtain ⟨n, v⟩ := nv
          simp only [hcut] at h
          rw [ih h, blocks, if_neg hempty, if_neg hfold, List.takeWhile_cons_of_neg hfold]
          cases open? <;>
            simp [Block.entry, Block.name, Block.value, Block.first, Block.halves, hcut,
              List.intercalate]

theorem length_limitBody {hs : Headers} {body limited : Utf8.Octets}
    (h : limitBody hs body = .ok limited) : limited.length ≤ body.length := by
  rw [limitBody] at h
  split at h
  · exact (congrArg List.length (Except.ok.inj h)).ge
  · split at h
    · cases h
    · rw [← Except.ok.inj h]
      exact List.length_take_le' _ _

theorem length_splitHead (data : Utf8.Octets) : (splitHead data).2.length ≤ data.length := by
  obtain ⟨head, back, hsplit⟩ : ∃ head back, splitHead data = (head, back) := ⟨_, _, rfl⟩
  rw [hsplit]
  obtain ⟨-, rfl⟩ | ⟨b, rfl⟩ := eq_of_splitHead hsplit
  · exact Nat.zero_le _
  · simp only [List.length_append]
    omega

theorem neat_of_statusLine? {start reason : Text} {code : UInt16} (hline : OneLine start)
    (h : statusLine? start = some (code, reason)) : reason.Neat := by
  rw [statusLine?] at h
  cases hversion : Text.cut? ' ' start with
  | none => simp [hversion] at h
  | some vr =>
    have hrest : OneLine vr.2 := (hline.cut? hversion).2
    cases hcode : Text.cut? ' ' vr.2 with
    | none =>
      simp only [hversion, hcode, Option.bind_eq_bind, Option.bind_some] at h
      obtain ⟨n, -, hn⟩ := Option.bind_eq_some_iff.1 h
      cases hn
      exact ⟨Text.oneLine_nil, rfl⟩
    | some cr =>
      simp only [hversion, hcode, Option.bind_eq_bind, Option.bind_some] at h
      obtain ⟨n, -, hn⟩ := Option.bind_eq_some_iff.1 h
      cases hn
      exact ⟨(hrest.cut? hcode).2.trim, Text.trim_trim _⟩

end Message

namespace Response

open Message

theorem printable_of_parse {data : Utf8.Octets} (hsize : data.length ≤ 18446744073709551615)
    {r : Response} (h : parse data = .ok (.response r)) :
    r.Printable ∧ Text.trim r.reason = r.reason := by
  obtain ⟨start, ls, es, hlines, hfields, hheaders, hbody, hparts⟩ := parts_of_parse h
  have hline : ∀ l ∈ start :: ls, OneLine l :=
    fun l hl => oneLine_of_mem_headLines (hlines ▸ hl)
  have hreason : r.reason.Neat := by
    rw [ofParts] at hparts
    split at hparts
    · cases hs : statusLine? start with
      | none => simp [hs] at hparts
      | some cr =>
        simp only [hs, Except.ok.injEq, Message.response.injEq] at hparts
        exact hparts ▸ neat_of_statusLine? (hline start List.mem_cons_self) hs
    · split at hparts
      · split at hparts <;> cases hparts
      · cases hparts
  refine ⟨⟨hreason.line, ?_, unfolded_of_parse h, ?_⟩, hreason.trimmed⟩
  · have hentries : r.headers.entries = _ :=
      (congrArg Headers.entries hheaders).trans (Headers.entries_ofList es)
    rw [hentries, List.forall_mem_map, fields_eq_blocks hfields, Option.map_none,
      Option.toList_none, List.append_nil, List.nil_append, List.forall_mem_map]
    intro b hb
    exact Headers.printable_normalise b.colon_not_mem_name
      (Block.oneLine_name (hline _ (List.mem_cons_of_mem start (line_mem_of_mem_blocks hb))))
  · have hskip : (skipBreaks data).length ≤ data.length := (List.dropWhile_sublist _).length_le
    have hfront := length_splitHead (skipBreaks data)
    have hlimit : r.body.length ≤ _ := length_limitBody hbody
    omega

theorem given_reread (r : Response) :
    r.reread.given = r.given.map fun e => (e.1, Text.trim e.2) := by
  have hgiven : ∀ e ∈ r.given, (e.1 != contentLength) = true :=
    fun e he => (List.mem_filter.1 he).2
  have hkept : (r.given.map fun e => (e.1, Text.trim e.2)).filter (fun e => e.1 != contentLength) =
      r.given.map fun e => (e.1, Text.trim e.2) :=
    List.filter_eq_self.2 (List.forall_mem_map.2 hgiven)
  have hsize : [(contentLength, Text.trim r.sizeField.2)].filter
      (fun e => e.1 != contentLength) = [] := by simp
  rw [given, reread, printed, List.map_append, List.filter_append, hkept]
  exact (congrArg _ hsize).trans (List.append_nil _)

theorem given_of_parse {data : Utf8.Octets} {r : Response}
    (h : parse data = .ok (.response r)) :
    r.given = ((blocks (headLines data).tail).filter fun b =>
        Headers.normalise b.name != contentLength).map
      fun b => (Headers.normalise b.name, b.value) := by
  obtain ⟨start, ls, es, hlines, hfields, hheaders, -, -⟩ := parts_of_parse h
  have hentries : r.headers.entries = _ :=
    (congrArg Headers.entries hheaders).trans (Headers.entries_ofList es)
  rw [given, hentries, fields_eq_blocks hfields, hlines, List.tail_cons]
  simp [Block.entry, List.filter_map, Function.comp_def]

/-- A response that was read is printed and read again with the same code, reason and body, and with
the same fields but for sizes, in the same order, under the same names and with their values trimmed.
So the fields are the same exactly if none of them but a size has a value on several lines of which
the first part or the last is blank. -/
theorem reprint_iff {data : Utf8.Octets} (hsize : data.length ≤ 18446744073709551615)
    {r : Response} (h : parse data = .ok (.response r)) :
    ∃ r' : Response, parse r.encode = .ok (.response r') ∧
      (r'.code = r.code ∧ r'.reason = r.reason ∧ r'.body = r.body ∧
        r'.given = r.given.map fun e => (e.1, Text.trim e.2)) ∧
      (r'.given = r.given ↔ ∀ b ∈ blocks (headLines data).tail,
        Headers.normalise b.name ≠ contentLength → b.Snug) := by
  obtain ⟨hprintable, hreason⟩ := printable_of_parse hsize h
  refine ⟨r.reread, parse_encode hprintable, ⟨rfl, hreason, rfl, given_reread r⟩, ?_⟩
  rw [given_reread, given_of_parse h, List.map_map]
  have hsame (bs : List Block) :
      (bs.map ((fun e : Text × Text => (e.1, Text.trim e.2)) ∘
          fun b => (Headers.normalise b.name, b.value)) =
        bs.map fun b => (Headers.normalise b.name, b.value)) ↔ ∀ b ∈ bs, b.Snug := by
    rw [List.map_inj_left]
    simp [Block.trim_value_iff]
  rw [hsame]
  simp [List.mem_filter]

theorem reprint_sizes :
    let data := Utf8.encode
      "SIP/2.0 0200  Very  Fine \nv: a\n b \nL:\n 3\n: x\nl: 9\n\nabcd".toList
    let r : Response := ⟨200, "Very  Fine".toList, ⟨[("via".toList, "a b".toList),
      (contentLength, " 3".toList), ([], ['x']), (contentLength, ['9'])]⟩, Utf8.encode "abc".toList⟩
    data.length ≤ 18446744073709551615 ∧ parse data = .ok (.response r) ∧
      ∃ r' : Response, parse r.encode = .ok (.response r') ∧ r'.code = 200 ∧
        r'.reason = "Very  Fine".toList ∧ r'.body = r.body ∧
        r'.given = [("via".toList, "a b".toList), ([], ['x'])] := by
  intro data r
  have hsize : data.length ≤ 18446744073709551615 := by decide
  have hparse : parse data = .ok (.response r) := by decide +kernel
  have hgiven : r.given = [("via".toList, "a b".toList), ([], ['x'])] := by decide
  obtain ⟨r', hback, ⟨hcode, hreason, hbody, -⟩, hsame⟩ := reprint_iff hsize hparse
  exact ⟨hsize, hparse, r', hback, hcode, hreason, hbody, hgiven ▸ hsame.2 (by decide +kernel)⟩

/-- A value that starts on the second of two lines, and one whose second line is blank. -/
theorem reprint_ragged :
    let ok (value : Text) (size : List (Text × Text)) : Response :=
      ⟨200, "OK".toList, ⟨("subject".toList, value) :: size⟩, []⟩
    let reread := ok "hello".toList [(contentLength, ['0'])]
    (parse (Utf8.encode "SIP/2.0 200 OK\r\nSubject:\r\n hello\r\n\r\n".toList) =
        .ok (.response (ok " hello".toList [])) ∧
      parse (ok " hello".toList []).encode = .ok (.response reread) ∧
      reread.given ≠ (ok " hello".toList []).given) ∧
    parse (Utf8.encode "SIP/2.0 200 OK\r\nSubject: hello\r\n \r\n\r\n".toList) =
        .ok (.response (ok "hello ".toList [])) ∧
      parse (ok "hello ".toList []).encode = .ok (.response reread) ∧
      reread.given ≠ (ok "hello ".toList []).given := by
  decide +kernel

end Response
end SipTestbed
