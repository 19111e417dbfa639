import SipTestbed.Headers
import SipTestbed.Text.Lemmas

/-! The values of a name after each operation, and the spelling of kept names. -/
namespace SipTestbed.Headers

theorem get?_eq_head? (hs : Headers) (n : Text) : hs.get? n = (hs.getAll n).head? := by
  simp [get?, getAll, List.head?_map, List.head?_filter]

theorem getAll_add (hs : Headers) (n m v : Text) :
    (hs.add n v).getAll m = hs.getAll m ++ if normalise n = normalise m then [v] else [] := by
  rw [getAll, add, List.filter_append, List.map_append, getAll]
  by_cases h : normalise n = normalise m
  · simp [h]
  · simp [h]

theorem getAll_remove (hs : Headers) (n m : Text) :
    (hs.remove n).getAll m = if normalise n = normalise m then [] else hs.getAll m := by
  rw [getAll, remove, List.filter_filter, getAll]
  by_cases h : normalise n = normalise m
  · have hnone : (hs.entries.filter fun e => e.1 == normalise m && e.1 != normalise n) = [] := by
      simp [h]
    rw [if_pos h, hnone, List.map_nil]
  · have hsame : (hs.entries.filter fun e => e.1 == normalise m && e.1 != normalise n) =
        hs.entries.filter fun e => e.1 == normalise m := by
      apply List.filter_congr
      intro e _
      by_cases he : e.1 = normalise m
      · simp [he, Ne.symm h]
      · simp [he]
    rw [if_neg h, hsame]

theorem getAll_set (hs : Headers) (n m v : Text) :
    (hs.set n v).getAll m = if normalise n = normalise m then [v] else hs.getAll m := by
  rw [set, getAll_add, getAll_remove]
  by_cases h : normalise n = normalise m
  · rw [if_pos h, if_pos h, if_pos h, List.nil_append]
  · rw [if_neg h, if_neg h, if_neg h, List.append_nil]

def replaceHead (v : Text) : List Text → List Text
  | [] => [v]
  | _ :: vs => v :: vs

theorem getAll_replaceFirst (hs : Headers) (n m v : Text) :
    (hs.replaceFirst n v).getAll m =
      if normalise n = normalise m then replaceHead v (hs.getAll m) else hs.getAll m := by
  obtain ⟨es⟩ := hs
  simp only [getAll, replaceFirst]
  generalize normalise n = a, normalise m = b
  induction es with
  | nil => by_cases h : a = b <;> simp [replaceEntry, replaceHead, h]
  | cons e es ih =>
    by_cases he : e.1 = a
    · by_cases h : a = b
      · simp [replaceEntry, replaceHead, he, h]
      · simp [replaceEntry, he, h]
    · by_cases h : a = b
      · subst h
        simpa [replaceEntry, he] using ih
      · by_cases hb : e.1 = b
        · have hba : ¬ b = a := fun h' => h h'.symm
          simpa [replaceEntry, h, hb, hba] using ih
        · simpa [replaceEntry, he, h, hb] using ih

theorem get?_replaceFirst (hs : Headers) (n v : Text) : (hs.replaceFirst n v).get? n = some v := by
  rw [get?_eq_head?, getAll_replaceFirst, if_pos rfl]
  cases hs.getAll n <;> rfl

/-- Of the entries of a name the first alone changes, where it stands. -/
theorem entries_replaceFirst {hs : Headers} {n v : Text} (h : hs.get? n = some v)
    (v' : Text) : ∃ front back, (∀ e ∈ front, e.1 ≠ normalise n) ∧
      hs.entries = front ++ (normalise n, v) :: back ∧
      (hs.replaceFirst n v').entries = front ++ (normalise n, v') :: back := by
  obtain ⟨es⟩ := hs
  simp only [get?, replaceFirst] at h ⊢
  generalize normalise n = m at h
  induction es with
  | nil => cases h
  | cons e es ih =>
    rw [replaceEntry]
    by_cases he : e.1 = m
    · rw [List.find?_cons_of_pos (by simpa using he), Option.map_some, Option.some.injEq] at h
      refine ⟨[], es, by simp, ?_, ?_⟩
      · rw [← he, ← h, List.nil_append]
      · rw [if_pos (by simpa using he), he, List.nil_append]
    · rw [List.find?_cons_of_neg (by simpa using he)] at h
      obtain ⟨front, back, hfront, hes, hes'⟩ := ih h
      refine ⟨e :: front, back, List.forall_mem_cons.2 ⟨he, hfront⟩, ?_, ?_⟩
      · rw [hes, List.cons_append]
      · rw [if_neg (by simpa using he), hes', List.cons_append]

theorem entries_foldl_add (hs : Headers) (n : Text) (vs : List Text) :
    (vs.foldl (fun hs v => hs.add n v) hs).entries =
      hs.entries ++ vs.map fun v => (normalise n, v) := by
  induction vs generalizing hs with
  | nil => simp
  | cons v vs ih =>
    rw [List.foldl_cons, ih]
    simp [add]

theorem entries_copyFrom (hs other : Headers) (n : Text) :
    (hs.copyFrom other n).entries =
      hs.entries ++ (other.getAll n).map fun v => (normalise n, v) :=
  entries_foldl_add hs n _

theorem getAll_copyFrom (hs other : Headers) (n m : Text) : (hs.copyFrom other n).getAll m =
    hs.getAll m ++ if normalise n = normalise m then other.getAll n else [] := by
  rw [getAll, entries_copyFrom, List.filter_append, List.map_append, getAll]
  generalize other.getAll n = vs
  by_cases h : normalise n = normalise m
  · simp [h, List.filter_map, Function.comp_def, getAll]
  · simp [h, List.filter_map, Function.comp_def, getAll]

theorem entries_ofList (es : List (Text × Text)) :
    (ofList es).entries = es.map fun e => (normalise e.1, e.2) := by
  have hfold (hs : Headers) : (es.foldl (fun hs e => hs.add e.1 e.2) hs).entries =
      hs.entries ++ es.map fun e => (normalise e.1, e.2) := by
    induction es generalizing hs with
    | nil => simp
    | cons e es ih =>
      rw [List.foldl_cons, ih]
      simp [add]
  exact hfold empty

theorem longForm?_eq_some {c : Char} {l : Text} (h : longForm? c = some l) :
    Text.lower (Text.trim l) = l ∧ expand l = l := by
  unfold longForm? at h
  split at h <;> cases h
  all_goals decide +kernel

theorem lower_trim_expand {n : Text} (h : Text.lower (Text.trim n) = n) :
    Text.lower (Text.trim (expand n)) = expand n ∧ expand (expand n) = expand n := by
  match n with
  | [] => exact ⟨h, rfl⟩
  | [c] =>
    cases hl : longForm? c with
    | none => simpa [expand, hl] using h
    | some l => simpa [expand, hl] using longForm?_eq_some hl
  | _ :: _ :: _ => exact ⟨h, rfl⟩

theorem lower_trim_lower_trim (n : Text) :
    Text.lower (Text.trim (Text.lower (Text.trim n))) = Text.lower (Text.trim n) := by
  rw [Text.trim_lower, Text.trim_trim, Text.lower_lower]

theorem normalise_normalise (n : Text) : normalise (normalise n) = normalise n := by
  have h := lower_trim_expand (lower_trim_lower_trim n)
  rw [normalise, normalise, h.1, h.2]

end SipTestbed.Headers
