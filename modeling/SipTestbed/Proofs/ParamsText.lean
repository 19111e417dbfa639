import SipTestbed.Params
import SipTestbed.Proofs.Text

/-! Printed parameters are read back: names, order and number as they were, and of the values what
trimming and unquoting leaves. Blanks at the end of the text change nothing. -/
namespace SipTestbed.Params

def body : Param → Text
  | (k, some v) => k ++ '=' :: v
  | (k, none) => k

/-- What reading its text makes of a value. -/
def reread (v : Text) : Text := Text.unquote (Text.trim v)

def rereadParam (p : Param) : Param := (p.1, p.2.map reread)

/-- A parameter as reading gives it: its text is told from its neighbours', its name from its value,
and no flag is blank. -/
structure Printable (p : Param) : Prop where
  semicolon_name : ';' ∉ p.1
  equals_name : '=' ∉ p.1
  trim_name : Text.trim p.1 = p.1
  lower_name : Text.lower p.1 = p.1
  semicolon_value : ∀ v, p.2 = some v → ';' ∉ v
  flag : p.2 = none → p.1 ≠ []

instance (p : Param) : Decidable (Printable p) :=
  decidable_of_iff (';' ∉ p.1 ∧ '=' ∉ p.1 ∧ Text.trim p.1 = p.1 ∧ Text.lower p.1 = p.1 ∧
      (∀ v ∈ p.2, ';' ∉ v) ∧ (p.2 = none → p.1 ≠ []))
    ⟨fun ⟨a, b, c, d, e, f⟩ => ⟨a, b, c, d, e, f⟩, fun ⟨a, b, c, d, e, f⟩ => ⟨a, b, c, d, e, f⟩⟩

theorem semicolon_not_mem_body {p : Param} (hp : Printable p) : ';' ∉ body p := by
  obtain ⟨k, v?⟩ := p
  cases v? with
  | none => exact hp.semicolon_name
  | some v => simp [body, hp.semicolon_name, hp.semicolon_value v rfl]

theorem parseOne?_body {p : Param} (hp : Printable p) :
    parseOne? (body p) = some (rereadParam p) := by
  obtain ⟨k, v?⟩ := p
  cases v? with
  | none =>
    have hk : Text.trim k = k := hp.trim_name
    have hl : Text.lower k = k := hp.lower_name
    have hcut : Text.cut? '=' k = none := Text.cut?_eq_none_iff.2 hp.equals_name
    simp [parseOne?, body, hk, hl, hp.flag rfl, hcut, rereadParam]
  | some v =>
    have hk : k.dropWhile Text.isBlank = k := Text.dropWhile_of_trim hp.trim_name
    have ht : Text.trim (k ++ '=' :: v) = k ++ '=' :: v.rdropWhile Text.isBlank := by
      rw [Text.trim_append_cons k v (by decide), hk]
    have hcut : Text.cut? '=' (k ++ '=' :: v.rdropWhile Text.isBlank) =
        some (k, v.rdropWhile Text.isBlank) := Text.cut?_eq_some_iff.2 ⟨rfl, hp.equals_name⟩
    have hn : Text.trim k = k := hp.trim_name
    have hl : Text.lower k = k := hp.lower_name
    simp [parseOne?, body, ht, hcut, hn, hl, Text.trim_rdropWhile, rereadParam, reread]

theorem render_cons (p : Param) (ps : Params) :
    render (p :: ps) = ';' :: [';'].intercalate ((p :: ps).map body) := by
  have one (q : Param) : renderOne q = ';' :: body q := by
    obtain ⟨k, v?⟩ := q
    cases v? <;> simp [renderOne, body]
  induction ps generalizing p with
  | nil => simp [render, one]
  | cons q ps ih =>
    have h := ih q
    simp only [render, List.flatMap_cons, one] at h ⊢
    rw [h]
    simp [List.intercalate]

theorem parse_render {p : Param} {ps : Params} (h : ∀ q ∈ p :: ps, Printable q) :
    Params.parse ([';'].intercalate ((p :: ps).map body)) = (p :: ps).map rereadParam := by
  have hs : ([';'].intercalate ((p :: ps).map body)).splitOn ';' = (p :: ps).map body := by
    apply List.splitOn_intercalate
    · intro t ht
      obtain ⟨q, hq, rfl⟩ := List.mem_map.1 ht
      exact semicolon_not_mem_body (h q hq)
    · simp
  rw [Params.parse, hs]
  generalize p :: ps = qs at h
  induction qs with
  | nil => rfl
  | cons q qs ih =>
    have hq := parseOne?_body (h q (by simp))
    have hqs := ih fun r hr => h r (List.mem_cons_of_mem q hr)
    simp [hq, hqs]

def text? : Params → Option Text
  | [] => none
  | p :: ps => some ([';'].intercalate ((p :: ps).map body))

theorem parse_text? {ps : Params} (h : ∀ p ∈ ps, Printable p) :
    ((text? ps).map Params.parse).getD [] = ps.map rereadParam := by
  cases ps with
  | nil => rfl
  | cons p ps => exact parse_render h

theorem mem_renderOne_iff {p : Param} {c : Char} (hc : c ≠ ';') (he : c ≠ '=') :
    c ∈ renderOne p ↔ c ∈ p.1 ∨ ∃ v, p.2 = some v ∧ c ∈ v := by
  obtain ⟨k, v?⟩ := p
  cases v? with
  | none => simp [renderOne, hc]
  | some v => simp [renderOne, hc, he]

theorem parse_rdropWhile (t : Text) :
    Params.parse (t.rdropWhile Text.isBlank) = Params.parse t := by
  induction t using List.reverseRecOn with
  | nil => rfl
  | append_singleton t c ih =>
    cases hc : Text.isBlank c with
    | false => rw [List.rdropWhile_concat_neg _ _ _ (by simp [hc])]
    | true =>
      rw [List.rdropWhile_concat_pos _ _ _ hc, ih]
      have hne : c ≠ ';' := by
        intro h
        subst h
        simp [Text.isBlank] at hc
      obtain ⟨front, last, ht, htc⟩ := Text.splitOn_concat hne t
      have hlast : parseOne? (last ++ [c]) = parseOne? last := by
        rw [parseOne?, Text.trim_concat hc, parseOne?]
      rw [Params.parse, Params.parse, ht, htc, List.filterMap_append, List.filterMap_append,
        List.filterMap_cons, List.filterMap_cons, hlast]

theorem forms_of_parseOne? {t : Text} {p : Param} (h : parseOne? t = some p) :
    (∃ k v, Text.trim t = k ++ '=' :: v ∧ '=' ∉ k ∧
        p = (Text.lower (Text.trim k), some (reread v))) ∨
      (Text.trim t ≠ [] ∧ '=' ∉ Text.trim t ∧ p = (Text.lower (Text.trim t), none)) := by
  rw [parseOne?] at h
  split at h
  · cases h
  · rename_i hne
    split at h
    · rename_i k v hcut
      obtain ⟨htext, hk⟩ := Text.cut?_eq_some_iff.1 hcut
      exact Or.inl ⟨k, v, htext, hk, (Option.some.inj h).symm⟩
    · rename_i hcut
      have hk := Text.cut?_eq_none_iff.1 hcut
      exact Or.inr ⟨by simpa using hne, hk, (Option.some.inj h).symm⟩

theorem mem_of_parseOne? {c : Char} (hc : c.toNat < 97 ∨ 122 < c.toNat) {t : Text} {p : Param}
    (h : parseOne? t = some p) (hm : c ∈ p.1 ∨ ∃ v, p.2 = some v ∧ c ∈ v) : c ∈ t := by
  apply Text.mem_of_mem_trimBy (p := Text.isBlank)
  obtain ⟨k, v, htext, -, rfl⟩ | ⟨-, -, rfl⟩ := forms_of_parseOne? h
  · rw [← Text.trim, htext, List.mem_append, List.mem_cons]
    obtain hm | ⟨w, hw, hm⟩ := hm
    · exact Or.inl (Text.mem_of_mem_trimBy (Text.mem_of_mem_lower hc hm))
    · cases hw
      exact Or.inr (Or.inr (Text.mem_of_mem_trimBy (Text.mem_of_mem_trimBy hm)))
  · obtain hm | ⟨w, hw, -⟩ := hm
    · exact Text.mem_of_mem_lower hc hm
    · cases hw

theorem mem_of_parse {c : Char} (hc : c.toNat < 97 ∨ 122 < c.toNat) {t : Text} {p : Param}
    (h : p ∈ Params.parse t) (hm : c ∈ p.1 ∨ ∃ v, p.2 = some v ∧ c ∈ v) : c ∈ t := by
  obtain ⟨u, hu, hone⟩ := List.mem_filterMap.1 h
  exact Text.mem_of_mem_splitOn hu (mem_of_parseOne? hc hone hm)

theorem printable_of_parseOne? {t : Text} (ht : ';' ∉ t) {p : Param} (h : parseOne? t = some p) :
    Printable p := by
  have hname : ';' ∉ p.1 := fun hm => ht (mem_of_parseOne? (by decide) h (Or.inl hm))
  have hvalue : ∀ v, p.2 = some v → ';' ∉ v :=
    fun v hv hm => ht (mem_of_parseOne? (by decide) h (Or.inr ⟨v, hv, hm⟩))
  have hneat (s : Text) : Text.trim (Text.lower (Text.trim s)) = Text.lower (Text.trim s) := by
    rw [Text.trim_lower, Text.trim_trim]
  obtain ⟨k, v, -, hk, rfl⟩ | ⟨hne, hk, rfl⟩ := forms_of_parseOne? h
  · have hequals : '=' ∉ Text.lower (Text.trim k) :=
      fun hm => hk (Text.mem_of_mem_trimBy (Text.mem_of_mem_lower (by decide) hm))
    exact ⟨hname, hequals, hneat k, Text.lower_lower _, hvalue, fun hflag => by cases hflag⟩
  · have hequals : '=' ∉ Text.lower (Text.trim t) :=
      fun hm => hk (Text.mem_of_mem_lower (by decide) hm)
    exact ⟨hname, hequals, hneat t, Text.lower_lower _, hvalue,
      fun _ => by simpa [Text.lower] using hne⟩

theorem printable_of_parse {t : Text} {p : Param} (h : p ∈ Params.parse t) : Printable p := by
  obtain ⟨u, hu, hp⟩ := List.mem_filterMap.1 h
  exact printable_of_parseOne? (Text.not_mem_of_mem_splitOn hu) hp

theorem printable_pair {n v : Text}
    (hn : ';' ∉ n ∧ '=' ∉ n ∧ Text.trim n = n ∧ Text.lower n = n) (hv : ';' ∉ v) :
    Printable (n, some v) where
  semicolon_name := hn.1
  equals_name := hn.2.1
  trim_name := hn.2.2.1
  lower_name := hn.2.2.2
  semicolon_value w hw := by
    cases hw
    exact hv
  flag hw := by cases hw

theorem printable_set {n v : Text} (hn : Printable (n, some v)) {ps : Params}
    (h : ∀ p ∈ ps, Printable p) : ∀ p ∈ Params.set n v ps, Printable p := by
  induction ps with
  | nil => simpa [Params.set] using hn
  | cons q qs ih =>
    intro p hp
    have hq := h q (by simp)
    by_cases hw : Text.sameWord q.1 n = true
    · rw [Params.set, if_pos hw, List.mem_cons] at hp
      cases hp with
      | inl hp =>
        subst hp
        exact ⟨hq.1, hq.2, hq.3, hq.4, fun w hw => hn.5 w hw, fun hw => by cases hw⟩
      | inr hp => exact h p (List.mem_cons_of_mem q hp)
    · rw [Params.set, if_neg hw, List.mem_cons] at hp
      cases hp with
      | inl hp =>
        subst hp
        exact hq
      | inr hp => exact ih (fun r hr => h r (List.mem_cons_of_mem q hr)) p hp

theorem reread_of_ends {v : Text} (ht : Text.trim v = v) (hfirst : v.head? ≠ some '"')
    (hlast : v.getLast? ≠ some '"') : reread v = v := by
  rw [reread, ht]
  apply Text.trimBy_eq_self
  · intro c hc
    simp only [beq_eq_false_iff_ne]
    rintro rfl
    exact hfirst hc
  · intro c hc
    simp only [beq_eq_false_iff_ne]
    rintro rfl
    exact hlast hc

theorem reread_of_not_mem {v : Text} (hq : '"' ∉ v) (ht : Text.trim v = v) : reread v = v := by
  rw [reread, ht, Text.unquote_of_not_mem hq]

theorem trim_of_reread {v : Text} (h : reread v = v) : Text.trim v = v := by
  have hin := (Text.trimBy_sublist (· == '"') (Text.trim v)).length_le
  have hout := Text.trimBy_sublist Text.isBlank v
  have hlen := congrArg List.length h
  exact hout.eq_of_length_le (hlen.symm.le.trans hin)

theorem endsPlain_render {ps : Params} (h : ∀ p ∈ ps, Printable p)
    (hreread : ∀ p ∈ ps, rereadParam p = p) : Text.EndsPlain ps.render := by
  induction ps with
  | nil => exact fun c hc => by cases hc
  | cons p ps ih =>
    obtain ⟨hp, hps⟩ := List.forall_mem_cons.1 h
    obtain ⟨hp', hps'⟩ := List.forall_mem_cons.1 hreread
    refine Text.EndsPlain.append ?_ (ih hps hps')
    obtain ⟨k, v?⟩ := p
    have hname : Text.EndsPlain (';' :: k) :=
      .cons (by decide) (Text.endsPlain_of_trim hp.trim_name)
    cases v? with
    | none => exact hname
    | some v =>
      have hv : reread v = v := Option.some.inj (congrArg Prod.snd hp')
      have hvalue : Text.EndsPlain ('=' :: v) :=
        .cons (by decide) (Text.endsPlain_of_trim (trim_of_reread hv))
      simpa [renderOne] using hname.append hvalue

theorem rereadParam_of_parseOne? {t : Text} (ht : '"' ∉ t) {p : Param} (h : parseOne? t = some p) :
    rereadParam p = p := by
  obtain ⟨k, v, htext, -, rfl⟩ | ⟨-, -, rfl⟩ := forms_of_parseOne? h
  · have hquote : '"' ∉ Text.trim v := by
      intro hm
      have hin : '"' ∈ Text.trim t := by simp [htext, Text.mem_of_mem_trimBy hm]
      exact ht (Text.mem_of_mem_trimBy hin)
    have hvalue : reread v = Text.trim v := Text.unquote_of_not_mem hquote
    have hagain : reread (Text.trim v) = Text.trim v :=
      reread_of_not_mem hquote (Text.trim_trim v)
    rw [hvalue]
    exact congrArg (fun w => (_, some w)) hagain
  · rfl

theorem rereadParam_of_parse {t : Text} (ht : '"' ∉ t) {p : Param} (h : p ∈ Params.parse t) :
    rereadParam p = p := by
  obtain ⟨u, hu, hp⟩ := List.mem_filterMap.1 h
  exact rereadParam_of_parseOne? (fun hm => ht (Text.mem_of_mem_splitOn hu hm)) hp

theorem rereadParam_set {n v : Text} (hv : reread v = v) {ps : Params}
    (h : ∀ p ∈ ps, rereadParam p = p) : ∀ p ∈ Params.set n v ps, rereadParam p = p := by
  have hpair (k : Text) : rereadParam (k, some v) = (k, some v) :=
    congrArg (fun w => (k, some w)) hv
  induction ps with
  | nil => exact List.forall_mem_singleton.2 (hpair n)
  | cons q qs ih =>
    obtain ⟨hq, hqs⟩ := List.forall_mem_cons.1 h
    rw [Params.set]
    split
    · exact List.forall_mem_cons.2 ⟨hpair q.1, hqs⟩
    · exact List.forall_mem_cons.2 ⟨hq, ih hqs⟩

theorem set_ne_nil (n v : Text) (ps : Params) : Params.set n v ps ≠ [] := by
  cases ps with
  | nil => simp [Params.set]
  | cons p ps =>
    simp only [Params.set]
    split <;> simp

theorem value?_reread (ps : Params) (n : Text) :
    value? (ps.map rereadParam) n = (ps.value? n).map reread := by
  have hget : get? (ps.map rereadParam) n = (ps.get? n).map (Option.map reread) := by
    induction ps with
    | nil => rfl
    | cons p ps ih =>
      simp only [get?, List.map_cons, List.find?_cons, rereadParam] at ih ⊢
      cases hp : Text.sameWord p.1 n with
      | true => rfl
      | false => simpa using ih
  rw [value?, hget, value?]
  cases hg : ps.get? n with
  | none => rfl
  | some v? => cases v? <;> rfl

theorem get?_cons (p : Param) (ps : Params) (m : Text) :
    get? (p :: ps) m = if Text.sameWord p.1 m = true then some p.2 else ps.get? m := by
  rw [get?, List.find?_cons]
  cases Text.sameWord p.1 m <;> rfl

theorem get?_set (ps : Params) (n m v : Text) : (Params.set n v ps).get? m =
    if Text.sameWord n m = true then some (some v) else ps.get? m := by
  induction ps with
  | nil => rw [Params.set, get?_cons]
  | cons p ps ih =>
    rw [Params.set]
    by_cases hp : Text.sameWord p.1 n = true
    · rw [if_pos hp, get?_cons, get?_cons, Text.sameWord_trans hp]
      by_cases hm : Text.sameWord n m = true
      · rw [if_pos hm, if_pos hm]
      · rw [if_neg hm, if_neg hm, if_neg hm]
    · rw [if_neg hp, get?_cons, get?_cons, ih]
      by_cases hm : Text.sameWord p.1 m = true
      · have hn : ¬ Text.sameWord n m = true := by
          intro hn
          rw [Text.sameWord_symm] at hn
          exact hp ((Text.sameWord_trans hm).trans hn)
        rw [if_pos hm, if_neg hn, if_pos hm]
      · rw [if_neg hm, if_neg hm]

theorem value?_set (ps : Params) (n m v : Text) :
    (Params.set n v ps).value? m = if Text.sameWord n m then some v else ps.value? m := by
  rw [value?, get?_set]
  split <;> rfl

end SipTestbed.Params
