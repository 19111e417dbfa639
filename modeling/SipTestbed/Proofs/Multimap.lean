import Mathlib.Logic.Function.Basic
import SipTestbed.Headers.Lemmas

/-! Header fields as the lists of the values of each name. Whatever was done to them, under whatever
spelling of the names, the values of a name are those that a map from kept names to lists of values
would have, and no change touches the fields of other names. -/
namespace SipTestbed.Headers

/-- Two spellings of a name: in other letter case, with blanks around it, or by a letter that is short
for it. -/
inductive Respelt : Text → Text → Prop where
  | case {n m : Text} : Text.lower n = Text.lower m → Respelt n m
  | blanks (n : Text) : Respelt (Text.trim n) n
  | compact {c : Char} {l : Text} : longForm? c = some l → Respelt [c] l
  | symm {n m : Text} : Respelt n m → Respelt m n
  | trans {n m l : Text} : Respelt n m → Respelt m l → Respelt n l

theorem respelt_expand (n : Text) : Respelt n (expand n) := by
  match n with
  | [] => exact .case rfl
  | [c] =>
    cases hl : longForm? c with
    | none => simpa [expand, hl] using Respelt.case rfl
    | some l => simpa [expand, hl] using Respelt.compact hl
  | _ :: _ :: _ => exact .case rfl

theorem respelt_normalise (n : Text) : Respelt n (normalise n) := by
  have htrim : Respelt n (Text.trim n) := (Respelt.blanks n).symm
  have hlower : Respelt (Text.trim n) (Text.lower (Text.trim n)) :=
    .case (Text.lower_lower _).symm
  exact (htrim.trans hlower).trans (respelt_expand _)

theorem respelt_iff {n m : Text} : Respelt n m ↔ normalise n = normalise m := by
  constructor
  · intro h
    induction h with
    | case h => rw [normalise, ← Text.trim_lower, h, Text.trim_lower, normalise]
    | blanks n => rw [normalise, Text.trim_trim, normalise]
    | @compact c l h =>
      obtain ⟨hl, hexpand⟩ := longForm?_eq_some h
      have hletter : Text.lower (Text.trim [c]) = [c] := by
        unfold longForm? at h
        split at h <;> cases h
        all_goals rfl
      rw [normalise, hletter, normalise, hl, hexpand, expand, h, Option.getD_some]
    | symm _ ih => exact ih.symm
    | trans _ _ ih₁ ih₂ => exact ih₁.trans ih₂
  · intro h
    exact (respelt_normalise n).trans (h ▸ (respelt_normalise m).symm)

inductive Change where
  | add (value : Text)
  | set (value : Text)
  | replaceFirst (value : Text)
  | remove
  /-- Append the values of a list that was made by changes of its own. -/
  | copyFrom (other : List (Text × Change))

mutual
def Change.apply : Change → Text → Headers → Headers
  | .add v, n, hs => hs.add n v
  | .set v, n, hs => hs.set n v
  | .replaceFirst v, n, hs => hs.replaceFirst n v
  | .remove, n, hs => hs.remove n
  | .copyFrom other, n, hs => hs.copyFrom (run other empty) n

def run : List (Text × Change) → Headers → Headers
  | [], hs => hs
  | (n, c) :: cs, hs => run cs (c.apply n hs)
end

def build (cs : List (Text × Change)) : Headers := run cs empty

mutual
/-- What a change makes of the values of a name, given under its kept spelling. -/
def Change.revise : Change → Text → List Text → List Text
  | .add v, _, vs => vs ++ [v]
  | .set v, _, _ => [v]
  | .replaceFirst v, _, vs => replaceHead v vs
  | .remove, _, _ => []
  | .copyFrom other, n, vs => vs ++ tally other (fun _ => []) n

def tally : List (Text × Change) → (Text → List Text) → Text → List Text
  | [], m => m
  | (n, c) :: cs, m =>
    tally cs (Function.update m (normalise n) (c.revise (normalise n) (m (normalise n))))
end

def Agrees (hs : Headers) (m : Text → List Text) : Prop := ∀ n, hs.getAll n = m (normalise n)

theorem agrees_empty : Agrees empty fun _ => [] := fun _ => rfl

theorem Agrees.update {hs hs' : Headers} {m : Text → List Text} {n : Text} {vs : List Text}
    (h : Agrees hs m) (hnamed : ∀ k, normalise n = normalise k → hs'.getAll k = vs)
    (hothers : ∀ k, normalise n ≠ normalise k → hs'.getAll k = hs.getAll k) :
    Agrees hs' (Function.update m (normalise n) vs) := by
  intro k
  obtain hk | hk := eq_or_ne (normalise n) (normalise k)
  · rw [hnamed k hk, hk, Function.update_self]
  · rw [hothers k hk, h k, Function.update_of_ne hk.symm]

mutual
theorem Change.agrees_apply (c : Change) (n : Text) {hs : Headers} {m : Text → List Text}
    (h : Agrees hs m) : Agrees (c.apply n hs)
      (Function.update m (normalise n) (c.revise (normalise n) (m (normalise n)))) := by
  have hvalues {k : Text} (hk : normalise n = normalise k) : hs.getAll k = m (normalise n) := by
    rw [h k, hk]
  cases c with
  | add v =>
    apply h.update
    · intro k hk
      rw [Change.apply, getAll_add, if_pos hk, hvalues hk, Change.revise]
    · intro k hk
      rw [Change.apply, getAll_add, if_neg hk, List.append_nil]
  | set v =>
    apply h.update
    · intro k hk
      rw [Change.apply, getAll_set, if_pos hk, Change.revise]
    · intro k hk
      rw [Change.apply, getAll_set, if_neg hk]
  | replaceFirst v =>
    apply h.update
    · intro k hk
      rw [Change.apply, getAll_replaceFirst, if_pos hk, hvalues hk, Change.revise]
    · intro k hk
      rw [Change.apply, getAll_replaceFirst, if_neg hk]
  | remove =>
    apply h.update
    · intro k hk
      rw [Change.apply, getAll_remove, if_pos hk, Change.revise]
    · intro k hk
      rw [Change.apply, getAll_remove, if_neg hk]
  | copyFrom other =>
    apply h.update
    · intro k hk
      rw [Change.apply, getAll_copyFrom, if_pos hk, hvalues hk, agrees_run other agrees_empty,
        Change.revise]
    · intro k hk
      rw [Change.apply, getAll_copyFrom, if_neg hk, List.append_nil]

theorem agrees_run (cs : List (Text × Change)) {hs : Headers} {m : Text → List Text}
    (h : Agrees hs m) : Agrees (run cs hs) (tally cs m) := by
  match cs with
  | [] => simpa only [run, tally] using h
  | (n, c) :: cs =>
    rw [run, tally]
    exact agrees_run cs (c.agrees_apply n h)
end

/-- Every name stands under its kept spelling. -/
def Normal (hs : Headers) : Prop := ∀ e ∈ hs.entries, normalise e.1 = e.1

/-- The fields of all names but one, in their order. -/
def others (n : Text) (hs : Headers) : List (Text × Text) :=
  hs.entries.filter fun e => e.1 != normalise n

theorem Normal.add {hs : Headers} (h : hs.Normal) (n v : Text) : (hs.add n v).Normal := by
  rw [Normal, Headers.add, List.forall_mem_append, List.forall_mem_singleton]
  exact ⟨h, normalise_normalise n⟩

theorem Normal.remove {hs : Headers} (h : hs.Normal) (n : Text) : (hs.remove n).Normal :=
  fun e he => h e (List.mem_filter.1 he).1

theorem Normal.replaceFirst {hs : Headers} (h : hs.Normal) (n v : Text) :
    (hs.replaceFirst n v).Normal := by
  obtain ⟨es⟩ := hs
  simp only [Normal, Headers.replaceFirst] at h ⊢
  induction es with
  | nil => exact List.forall_mem_singleton.2 (normalise_normalise n)
  | cons e es ih =>
    obtain ⟨he, hes⟩ := List.forall_mem_cons.1 h
    rw [replaceEntry]
    split
    · exact List.forall_mem_cons.2 ⟨he, hes⟩
    · exact List.forall_mem_cons.2 ⟨he, ih hes⟩

theorem Normal.copyFrom {hs : Headers} (h : hs.Normal) (other : Headers) (n : Text) :
    (hs.copyFrom other n).Normal := by
  rw [Normal, entries_copyFrom, List.forall_mem_append, List.forall_mem_map]
  exact ⟨h, fun _ _ => normalise_normalise n⟩

theorem Change.normal_apply (c : Change) (n : Text) {hs : Headers} (h : hs.Normal) :
    (c.apply n hs).Normal := by
  cases c with
  | add v => simpa only [apply] using h.add n v
  | set v => simpa only [apply, Headers.set] using (h.remove n).add n v
  | replaceFirst v => simpa only [apply] using h.replaceFirst n v
  | remove => simpa only [apply] using h.remove n
  | copyFrom other => simpa only [apply] using h.copyFrom _ n

theorem normal_run (cs : List (Text × Change)) {hs : Headers} (h : hs.Normal) :
    (run cs hs).Normal := by
  induction cs generalizing hs with
  | nil => simpa only [run] using h
  | cons nc cs ih =>
    rw [run]
    exact ih (nc.2.normal_apply nc.1 h)

theorem others_add (hs : Headers) (n v : Text) : (hs.add n v).others n = hs.others n := by
  simp [others, Headers.add]

theorem others_remove (hs : Headers) (n : Text) : (hs.remove n).others n = hs.others n := by
  simp [others, Headers.remove]

theorem others_replaceFirst (hs : Headers) (n v : Text) :
    (hs.replaceFirst n v).others n = hs.others n := by
  obtain ⟨es⟩ := hs
  simp only [others, Headers.replaceFirst]
  induction es with
  | nil => simp [replaceEntry]
  | cons e es ih =>
    rw [replaceEntry]
    by_cases he : e.1 = normalise n
    · simp [he]
    · simp [he, ih]

theorem others_copyFrom (hs other : Headers) (n : Text) :
    (hs.copyFrom other n).others n = hs.others n := by
  simp [others, entries_copyFrom]

theorem Change.others_apply (c : Change) (n : Text) (hs : Headers) :
    (c.apply n hs).others n = hs.others n := by
  cases c with
  | add v => rw [apply, others_add]
  | set v => rw [apply, Headers.set, others_add, others_remove]
  | replaceFirst v => rw [apply, others_replaceFirst]
  | remove => rw [apply, others_remove]
  | copyFrom other => rw [apply, others_copyFrom]

theorem Change.apply_congr {n m : Text} (h : normalise n = normalise m) (c : Change)
    (hs : Headers) : c.apply n hs = c.apply m hs := by
  cases c with
  | add v => simp only [apply, Headers.add, h]
  | set v => simp only [apply, Headers.set, Headers.add, Headers.remove, h]
  | replaceFirst v => simp only [apply, Headers.replaceFirst, h]
  | remove => simp only [apply, Headers.remove, h]
  | copyFrom other => simp only [apply, Headers.copyFrom, getAll, Headers.add, h]

/-- Whatever changes made a list of fields, a name has the values that the map has, the first of them
is the one found, and every name stands under its kept spelling. No further change can tell two
spellings of a name apart or touches the fields of other names, and a first field that is replaced
keeps its place among all others. -/
theorem build_multimap (cs : List (Text × Change)) :
    (∀ n, (build cs).getAll n = tally cs (fun _ => []) (normalise n) ∧
        (build cs).get? n = (tally cs (fun _ => []) (normalise n)).head?) ∧
      (∀ e ∈ (build cs).entries, normalise e.1 = e.1) ∧
      (∀ n m, Respelt n m → (build cs).getAll n = (build cs).getAll m ∧
        (build cs).get? n = (build cs).get? m ∧
        ∀ c : Change, c.apply n (build cs) = c.apply m (build cs)) ∧
      (∀ n, ∀ c : Change, (c.apply n (build cs)).others n = (build cs).others n) ∧
      ∀ n v v', (build cs).get? n = some v → ∃ front back,
        (∀ e ∈ front, e.1 ≠ normalise n) ∧
        (build cs).entries = front ++ (normalise n, v) :: back ∧
        ((build cs).replaceFirst n v').entries = front ++ (normalise n, v') :: back := by
  have hvalues : Agrees (build cs) (tally cs fun _ => []) := agrees_run cs agrees_empty
  have hnormal : (build cs).Normal := normal_run cs fun e he => by cases he
  refine ⟨?_, hnormal, ?_, fun n c => c.others_apply n _, ?_⟩
  · intro n
    rw [get?_eq_head?, hvalues n]
    exact ⟨rfl, rfl⟩
  · intro n m hnm
    have hsame := respelt_iff.1 hnm
    exact ⟨by rw [getAll, getAll, hsame], by rw [get?, get?, hsame],
      fun c => c.apply_congr hsame _⟩
  · intro n v v' hget
    exact entries_replaceFirst hget v'

theorem build_multimap_from :
    let cs : List (Text × Change) :=
      [("f".toList, .add ['1']), ("x".toList, .add ['2']),
        ("\tFrom ".toList,
          .copyFrom [("FROM".toList, .replaceFirst ['3']), ("F".toList, .add ['4'])]),
        ("t".toList, .set ['5'])]
    let from? := (build cs).getAll "from".toList
    from? = [['1'], ['3'], ['4']] ∧ (build cs).getAll " F".toList = from? ∧
      ((build cs).replaceFirst "f".toList ['6']).entries = [("from".toList, ['6']), (['x'], ['2']),
        ("from".toList, ['3']), ("from".toList, ['4']), ("to".toList, ['5'])] := by
  intro cs from?
  obtain ⟨hvalues, -, hspelt, -, hplace⟩ := build_multimap cs
  have hall : from? = [['1'], ['3'], ['4']] := (hvalues "from".toList).1
  have hrespelt : Respelt " F".toList "from".toList :=
    (Respelt.case (by decide)).trans
      ((Respelt.blanks " f".toList).symm.trans (.compact (by decide)))
  have hget : (build cs).get? "f".toList = some ['1'] := (hvalues "f".toList).2
  obtain ⟨front, back, hfront, hentries, hreplaced⟩ := hplace "f".toList ['1'] ['6'] hget
  refine ⟨hall, (hspelt _ _ hrespelt).1, ?_⟩
  have hlist : (build cs).entries = [("from".toList, ['1']), (['x'], ['2']), ("from".toList, ['3']),
    ("from".toList, ['4']), ("to".toList, ['5'])] := by decide
  rw [hlist] at hentries
  cases front with
  | nil =>
    rw [hreplaced, List.nil_append, ← (List.cons.inj hentries).2]
    rfl
  | cons e front =>
    have hfirst : e = ("from".toList, ['1']) := (List.cons.inj hentries).1.symm
    exact absurd (congrArg Prod.fst hfirst) (hfront e List.mem_cons_self)

end SipTestbed.Headers
