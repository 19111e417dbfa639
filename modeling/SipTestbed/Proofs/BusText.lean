import Mathlib
import SipTestbed.Profile
import SipTestbed.Proofs.JsonPrinting

/-! Parameters on the bus and back. A map is kept as the list of its entries in the order of their
names, and is known by what it has under each name; so what a text of an object makes is told by its
members, the last of each name. -/
namespace SipTestbed

namespace BusValue

/-- What a value on the bus stands for: a string for its text, be it one of digits, and digits without
sign, fraction and exponent for their number, if it has no more than 32 bits. A string whose escapes
leave half of a character has no text. -/
inductive Denotes : Json → BusValue → Prop where
  | text {q : Json.Quoted} {t : Text} : q.decode? = some t → Denotes (.string q) (.text t)
  | number {ds : Text} {n : UInt32} : Decimal.Writes n.toNat ds →
      Denotes (.number ⟨false, ds, []⟩) (.number n)

theorem ofJson?_eq_some_iff {v : Json} {b : BusValue} : ofJson? v = some b ↔ Denotes v b := by
  constructor
  · intro h
    cases v with
    | number n =>
      obtain ⟨k, hk, rfl⟩ := Option.map_eq_some_iff.1 h
      obtain ⟨ds, rfl, hds, hle⟩ := Json.Number.unsigned?_eq_some_iff_writes.1 hk
      have hvalue : (UInt32.ofNat k).toNat = k := UInt32.toNat_ofNat_of_lt' (Nat.lt_succ_of_le hle)
      exact .number (hvalue.symm ▸ hds)
    | string q =>
      obtain ⟨t, ht, rfl⟩ := Option.map_eq_some_iff.1 h
      exact .text ht
    | _ => cases h
  · intro h
    cases h with
    | text ht => rw [ofJson?, ht, Option.map_some]
    | @number ds n hds =>
      have hread : Json.Number.unsigned? 4294967295 ⟨false, ds, []⟩ = some n.toNat :=
        Json.Number.unsigned?_eq_some_iff_writes.2
          ⟨ds, rfl, hds, Nat.le_of_lt_succ n.toNat_lt⟩
      rw [ofJson?, hread, Option.map_some, UInt32.ofNat_toNat]

theorem denotes_toJson (b : BusValue) : Denotes b.toJson b := by
  cases b with
  | number n => exact .number (Decimal.writes_write n.toNat)
  | text t => exact .text (Json.Quoted.decode?_encode t)

theorem spells_toJson (b : BusValue) : Json.Spells (.value b.toJson) b.toJson.render := by
  cases b with
  | number n => exact Json.spells_ofNat n.toNat
  | text t => exact Json.spells_ofText t

end BusValue

namespace BusParams

/-- The names stand in the order of their characters, and each but once. -/
def Ordered (ps : BusParams) : Prop := ps.Pairwise fun p q => p.1 < q.1

instance (ps : BusParams) : Decidable ps.Ordered :=
  inferInstanceAs (Decidable (List.Pairwise (fun p q : Text × BusValue => p.1 < q.1) ps))

/-- An entry of a list, after which its name is not given again. -/
def LastIn (gs : List (Text × BusValue)) (g : Text × BusValue) : Prop :=
  ∃ front back, gs = front ++ g :: back ∧ ∀ e ∈ back, e.1 ≠ g.1

def ofList (gs : List (Text × BusValue)) : BusParams :=
  gs.foldl (fun ps g => insert g.1 g.2 ps) []

variable {ps qs : BusParams} {gs : List (Text × BusValue)} {e g : Text × BusValue} {k : Text}

theorem Ordered.lt_of_lt {p : Text × BusValue} (h : Ordered (p :: ps)) (hk : k < p.1) :
    ∀ e ∈ p :: ps, k < e.1 :=
  List.forall_mem_cons.2
    ⟨hk, fun e he => List.lt_trans hk ((List.pairwise_cons.1 h).1 e he)⟩

theorem mem_insert_iff (h : ps.Ordered) (k : Text) (v : BusValue) :
    e ∈ insert k v ps ↔ e = (k, v) ∨ (e.1 ≠ k ∧ e ∈ ps) := by
  have hne {a b : Text} (hab : a < b) : b ≠ a := fun he => List.lt_irrefl a (he ▸ hab)
  induction ps with
  | nil => simp [insert]
  | cons p ps ih =>
    obtain ⟨hp, hps⟩ := List.pairwise_cons.1 h
    rw [insert]
    -- The first entry is replaced, or the new one goes in front of it, or further back.
    split
    · rename_i hk
      rw [List.mem_cons, List.mem_cons]
      refine or_congr_right ⟨fun he => ⟨hne (hk ▸ hp e he), Or.inr he⟩, ?_⟩
      rintro ⟨hek, rfl | he⟩
      · exact absurd hk.symm hek
      · exact he
    · rename_i hkp
      split
      · rename_i hlt
        rw [List.mem_cons]
        exact or_congr_right ⟨fun he => ⟨hne (h.lt_of_lt hlt e he), he⟩, And.right⟩
      · rw [List.mem_cons, List.mem_cons]
        constructor
        · rintro (rfl | he)
          · exact Or.inr ⟨Ne.symm hkp, Or.inl rfl⟩
          · exact ((ih hps).1 he).imp_right fun ⟨hek, he⟩ => ⟨hek, Or.inr he⟩
        · rintro (he | ⟨hek, rfl | he⟩)
          · exact Or.inr ((ih hps).2 (Or.inl he))
          · exact Or.inl rfl
          · exact Or.inr ((ih hps).2 (Or.inr ⟨hek, he⟩))

theorem Ordered.insert (h : ps.Ordered) (k : Text) (v : BusValue) : (insert k v ps).Ordered := by
  induction ps with
  | nil => exact List.pairwise_singleton _ _
  | cons p ps ih =>
    obtain ⟨hp, hps⟩ := List.pairwise_cons.1 h
    rw [BusParams.insert]
    split
    · rename_i hk
      exact List.pairwise_cons.2 ⟨fun e he => hk ▸ hp e he, hps⟩
    · rename_i hne
      split
      · rename_i hlt
        exact List.pairwise_cons.2 ⟨h.lt_of_lt hlt, h⟩
      · rename_i hnlt
        have hlt : p.1 < k := Decidable.byContradiction fun hn =>
          hne (List.le_antisymm (List.not_lt.1 hn) (List.not_lt.1 hnlt))
        refine List.pairwise_cons.2 ⟨fun e he => ?_, ih hps⟩
        obtain rfl | ⟨-, he⟩ := (mem_insert_iff hps k v).1 he
        · exact hlt
        · exact hp e he

theorem eq_of_mem_iff (hps : ps.Ordered) (hqs : qs.Ordered) (h : ∀ e, e ∈ ps ↔ e ∈ qs) :
    ps = qs := by
  have hnodup {rs : BusParams} (hrs : rs.Ordered) : rs.Nodup := by
    refine List.Pairwise.imp (fun {p q} hlt he => ?_) hrs
    subst he
    exact List.lt_irrefl _ hlt
  have hperm : ps.Perm qs := (List.perm_ext_iff_of_nodup (hnodup hps) (hnodup hqs)).2 h
  exact hperm.eq_of_pairwise
    (fun _ _ _ _ hab hba => absurd (List.lt_trans hab hba) (List.lt_irrefl _))
    hps hqs

theorem ofList_concat (gs : List (Text × BusValue)) (g : Text × BusValue) :
    ofList (gs ++ [g]) = insert g.1 g.2 (ofList gs) := by
  rw [ofList, List.foldl_append]
  rfl

theorem ordered_ofList (gs : List (Text × BusValue)) : (ofList gs).Ordered := by
  induction gs using List.reverseRecOn with
  | nil => exact List.Pairwise.nil
  | append_singleton gs g ih =>
    rw [ofList_concat]
    exact ih.insert g.1 g.2

theorem lastIn_concat_iff {x : Text × BusValue} :
    LastIn (gs ++ [x]) g ↔ g = x ∨ (g.1 ≠ x.1 ∧ LastIn gs g) := by
  constructor
  · rintro ⟨front, back, hgs, hback⟩
    obtain rfl | ⟨back, y, rfl⟩ := List.eq_nil_or_concat' back
    · exact Or.inl (List.singleton_inj.1 (List.append_inj' hgs rfl).2).symm
    · rw [← List.cons_append, ← List.append_assoc] at hgs
      obtain ⟨rfl, hx⟩ := List.append_inj' hgs rfl
      obtain rfl := List.singleton_inj.1 hx
      exact Or.inr ⟨(hback x (by simp)).symm, front, back, rfl,
        fun e he => hback e (List.mem_append_left _ he)⟩
  · rintro (rfl | ⟨hne, front, back, rfl, hback⟩)
    · exact ⟨gs, [], rfl, List.forall_mem_nil _⟩
    · refine ⟨front, back ++ [x], by simp, fun e he => ?_⟩
      obtain he | he := List.mem_append.1 he
      · exact hback e he
      · rw [List.mem_singleton.1 he]
        exact hne.symm

theorem mem_ofList_iff : g ∈ ofList gs ↔ LastIn gs g := by
  induction gs using List.reverseRecOn with
  | nil => simp [ofList, LastIn]
  | append_singleton gs x ih =>
    rw [ofList_concat, mem_insert_iff (ordered_ofList gs), lastIn_concat_iff, ih]

theorem eq_ofList_iff : ps = ofList gs ↔ ps.Ordered ∧ ∀ g, g ∈ ps ↔ LastIn gs g := by
  constructor
  · rintro rfl
    exact ⟨ordered_ofList gs, fun _ => mem_ofList_iff⟩
  · rintro ⟨hps, hmem⟩
    exact eq_of_mem_iff hps (ordered_ofList gs) fun g => (hmem g).trans mem_ofList_iff.symm

theorem Ordered.eq_ofList (h : ps.Ordered) : ps = ofList ps := by
  refine eq_ofList_iff.2 ⟨h, fun g => ⟨fun hg => ?_, ?_⟩⟩
  · obtain ⟨front, back, rfl⟩ := List.append_of_mem hg
    obtain ⟨-, hback, -⟩ := List.pairwise_append.1 h
    refine ⟨front, back, rfl, fun e he heq => ?_⟩
    have hlt := (List.pairwise_cons.1 hback).1 e he
    rw [heq] at hlt
    exact List.lt_irrefl _ hlt
  · rintro ⟨front, back, rfl, -⟩
    exact List.mem_append_right _ List.mem_cons_self

/-- What a member of an object says: a name, written with any escapes, and what stands under it. -/
def Gives (m : Json.Quoted × Json) (g : Text × BusValue) : Prop :=
  m.1.decode? = some g.1 ∧ BusValue.Denotes m.2 g.2

variable {m : Json.Quoted × Json} {ms : List (Json.Quoted × Json)} {t : Text}

theorem insertMember?_eq_some_iff :
    insertMember? ps m = some qs ↔ ∃ g, Gives m g ∧ insert g.1 g.2 ps = qs := by
  simp only [insertMember?, Option.bind_eq_bind, Option.bind_eq_some_iff, Option.pure_def,
    Option.some.injEq, BusValue.ofJson?_eq_some_iff]
  constructor
  · rintro ⟨k, hk, v, hv, rfl⟩
    exact ⟨(k, v), ⟨hk, hv⟩, rfl⟩
  · rintro ⟨⟨k, v⟩, ⟨hk, hv⟩, rfl⟩
    exact ⟨k, hk, v, hv, rfl⟩

theorem insertMembers?_eq_some_iff : ms.foldlM insertMember? ps = some qs ↔
    ∃ gs, List.Forall₂ Gives ms gs ∧ gs.foldl (fun ps g => insert g.1 g.2 ps) ps = qs := by
  induction ms generalizing ps with
  | nil => simp
  | cons m ms ih =>
    rw [List.foldlM_cons, Option.bind_eq_bind, Option.bind_eq_some_iff]
    constructor
    · rintro ⟨rs, hm, hms⟩
      obtain ⟨g, hg, rfl⟩ := insertMember?_eq_some_iff.1 hm
      obtain ⟨gs, hgs, rfl⟩ := ih.1 hms
      exact ⟨g :: gs, .cons hg hgs, rfl⟩
    · rintro ⟨_, hgs, rfl⟩
      cases hgs with
      | cons hg hgs => exact ⟨_, insertMember?_eq_some_iff.2 ⟨_, hg, rfl⟩, ih.2 ⟨_, hgs, rfl⟩⟩

theorem parse?_of_spelt (h : Json.Spelt (.object ms) t) :
    parse? t = some ps ↔ ∃ gs, List.Forall₂ Gives ms gs ∧ ps = ofList gs := by
  rw [parse?, Json.parse?_eq_some_iff.2 h, Option.bind_some, ofJson?, insertMembers?_eq_some_iff]
  exact exists_congr fun gs => and_congr_right fun _ => eq_comm

theorem parse?_eq_some_iff : parse? t = some ps ↔
    ∃ ms gs, Json.Spelt (.object ms) t ∧ List.Forall₂ Gives ms gs ∧ ps = ofList gs := by
  constructor
  · intro h
    obtain ⟨v, hv, hps⟩ := Option.bind_eq_some_iff.1 h
    have hspelt := Json.parse?_eq_some_iff.1 hv
    cases v with
    | object ms =>
      obtain ⟨gs, hgs, he⟩ := (parse?_of_spelt hspelt).1 h
      exact ⟨ms, gs, hspelt, hgs, he⟩
    | _ => cases hps
  · rintro ⟨ms, gs, hspelt, hgs⟩
    exact (parse?_of_spelt hspelt).2 ⟨gs, hgs⟩

theorem exists_gives_iff :
    (∃ gs, List.Forall₂ Gives ms gs) ↔ ∀ m ∈ ms, ∃ g, Gives m g := by
  induction ms with
  | nil => simp
  | cons m ms ih =>
    rw [List.forall_mem_cons, ← ih]
    constructor
    · rintro ⟨_, hgs⟩
      cases hgs with
      | cons hg hgs => exact ⟨⟨_, hg⟩, _, hgs⟩
    · rintro ⟨⟨g, hg⟩, gs, hgs⟩
      exact ⟨g :: gs, .cons hg hgs⟩

theorem isSome_parse?_iff (h : Json.Spelt (.object ms) t) :
    (parse? t).isSome ↔ ∀ m ∈ ms, ∃ g, Gives m g := by
  rw [Option.isSome_iff_exists, ← exists_gives_iff]
  simp only [parse?_of_spelt h]
  constructor
  · rintro ⟨_, gs, hgs, -⟩
    exact ⟨gs, hgs⟩
  · rintro ⟨gs, hgs⟩
    exact ⟨ofList gs, gs, hgs, rfl⟩

theorem spelt_render (ps : BusParams) :
    ∃ ms, Json.Spelt (.object ms) ps.render ∧ List.Forall₂ Gives ms ps := by
  let ms := ps.map fun p => (Json.Quoted.encode p.1, p.2.toJson)
  refine ⟨ms, ?_, List.forall₂_map_left_iff.2 (List.forall₂_same.2 fun p _ => ?_)⟩
  · have hvalues : ∀ m ∈ ps.map fun p => (p.1, p.2.toJson),
        Json.Spells (.value m.2) m.2.render := by
      intro m hm
      obtain ⟨p, -, rfl⟩ := List.mem_map.1 hm
      exact p.2.spells_toJson
    have hms : ps.toJson = .object ms := by
      rw [toJson, Json.ofMembers, List.map_map]
      rfl
    exact hms ▸ Json.spelt_ofMembers hvalues
  · exact ⟨Json.Quoted.decode?_encode p.1, p.2.denotes_toJson⟩

theorem Ordered.parse?_render (h : ps.Ordered) : parse? ps.render = some ps := by
  obtain ⟨ms, hspelt, hgives⟩ := spelt_render ps
  exact (parse?_of_spelt hspelt).2 ⟨ps, hgives, h.eq_ofList⟩

/-- Parameters that are sent over the bus arrive as they were: numbers as numbers, and texts as texts,
those of digits too. What is sent lists the names in their order. Of the texts, those of an object are
read whose members all have a string or the digits of a number of 32 bits for their value, and what is
read has, under each name, what the last member of that name says. -/
theorem carried_whole :
    (∀ ps : BusParams, ps.Ordered → parse? ps.render = some ps ∧
      ∃ ms, Json.Spelt (.object ms) ps.render ∧ List.Forall₂ Gives ms ps) ∧
    (∀ t ps, parse? t = some ps ↔ ps.Ordered ∧ ∃ ms gs, Json.Spelt (.object ms) t ∧
      List.Forall₂ Gives ms gs ∧ ∀ g, g ∈ ps ↔ LastIn gs g) ∧
    (∀ ms t, Json.Spelt (.object ms) t →
      ((parse? t).isSome ↔ ∀ m ∈ ms, ∃ g, Gives m g)) := by
  refine ⟨fun ps hps => ⟨hps.parse?_render, spelt_render ps⟩, fun t ps => ?_,
    fun ms t hspelt => isSome_parse?_iff hspelt⟩
  rw [parse?_eq_some_iff]
  constructor
  · rintro ⟨ms, gs, hspelt, hgs, he⟩
    obtain ⟨hps, hmem⟩ := eq_ofList_iff.1 he
    exact ⟨hps, ms, gs, hspelt, hgs, hmem⟩
  · rintro ⟨hps, ms, gs, hspelt, hgs, hmem⟩
    exact ⟨ms, gs, hspelt, hgs, eq_ofList_iff.2 ⟨hps, hmem⟩⟩

theorem ordered_busParams (p : Profile) : p.busParams.Ordered := by
  have hnames : (p.busParams.map Prod.fst).Pairwise (· < ·) := by
    change ["account".toList, "password".toList, "port".toList].Pairwise (· < ·)
    decide
  exact List.pairwise_map.1 hnames

theorem carried_whole_digits :
    let p : Profile := { Profile.default with password := "4294967295".toList }
    parse? p.busParams.render = some p.busParams ∧
      parse? "\x7b\"port\": 4294967295, \"por\\u0074\": \"1\"\x7d".toList =
        some [("port".toList, .text "1".toList)] ∧
      parse? "\x7b\"port\": 4294967296\x7d".toList = none := by
  refine ⟨(carried_whole.1 _ (ordered_busParams _)).1, ?_, ?_⟩
  · have ht : Json.Spelt
        (.object [(Json.Quoted.encode "port".toList, .ofNat 4294967295),
          (Json.Quoted.encode "por".toList ++ [.unit 0x74], .ofText "1".toList)])
        "\x7b\"port\": 4294967295, \"por\\u0074\": \"1\"\x7d".toList :=
      Json.parse?_eq_some_iff.1 (by cbv)
    have hgives : List.Forall₂ Gives
        [(Json.Quoted.encode "port".toList, .ofNat 4294967295),
          (Json.Quoted.encode "por".toList ++ [.unit 0x74], .ofText "1".toList)]
        [("port".toList, .number 4294967295), ("port".toList, .text "1".toList)] :=
      .cons ⟨by decide, BusValue.denotes_toJson (.number 4294967295)⟩
        (.cons ⟨by decide, BusValue.denotes_toJson (.text "1".toList)⟩ .nil)
    exact (carried_whole.2.1 _ _).2 ⟨by decide, _, _, ht, hgives, (eq_ofList_iff.1 (by decide)).2⟩
  · have ht : Json.Spelt (.object [(Json.Quoted.encode "port".toList, .ofNat 4294967296)])
        "\x7b\"port\": 4294967296\x7d".toList :=
      Json.parse?_eq_some_iff.1 (by cbv)
    rw [← Option.not_isSome_iff_eq_none, carried_whole.2.2 _ _ ht]
    intro hall
    obtain ⟨g, -, hvalue⟩ := hall _ List.mem_cons_self
    have hnone : BusValue.ofJson? (.ofNat 4294967296) = none := by decide
    cases hnone.symm.trans (BusValue.ofJson?_eq_some_iff.2 hvalue)

end BusParams
end SipTestbed
