import Mathlib
import SipTestbed.Profile
import SipTestbed.Proofs.JsonPrinting

/-! Which settings a file makes: the fields that it gives stand in place of the defaults, and a
field given twice, or with a value that is not of its type, makes it an error. -/
namespace SipTestbed.Profile

inductive Setting where
  | text (t : Text)
  | number (n : Nat)
  deriving DecidableEq

/-- How a setting can be written, a text with any escapes, a number in one way alone. -/
def Setting.Written : Setting → Json → Prop
  | .text t, v => ∃ q, v = .string q ∧ q.decode? = some t
  | .number n, v => v = .ofNat n

def Field.value : Field → Profile → Setting
  | .account, p => .text p.account
  | .password, p => .text p.password
  | .port, p => .number p.port.toNat
  | .bindHost, p => .text p.bindHost
  | .registrarDomain, p => .text p.registrarDomain
  | .defaultExpirySecs, p => .number p.defaultExpirySecs.toNat
  | .testName, p => .text p.testName
  | .protocol, p => .text p.protocol

theorem eq_of_value {p q : Profile} (h : ∀ f : Field, f.value p = f.value q) : p = q := by
  obtain ⟨account, password, port, bindHost, domain, expiry, testName, protocol⟩ := p
  obtain ⟨account', password', port', bindHost', domain', expiry', testName', protocol'⟩ := q
  obtain rfl : account = account' := Setting.text.inj (h .account)
  obtain rfl : password = password' := Setting.text.inj (h .password)
  obtain rfl : port = port' := UInt16.toNat_inj.1 (Setting.number.inj (h .port))
  obtain rfl : bindHost = bindHost' := Setting.text.inj (h .bindHost)
  obtain rfl : domain = domain' := Setting.text.inj (h .registrarDomain)
  obtain rfl : expiry = expiry' := UInt64.toNat_inj.1 (Setting.number.inj (h .defaultExpirySecs))
  obtain rfl : testName = testName' := Setting.text.inj (h .testName)
  obtain rfl : protocol = protocol' := Setting.text.inj (h .protocol)
  rfl

theorem text?_eq_some_iff {v : Json} {t : Text} :
    v.text? = some t ↔ (Setting.text t).Written v := by
  cases v <;> simp [Json.text?, Setting.Written]

theorem nat?_eq_some_iff {v : Json} (hv : ∀ n, v = .number n → n.WellFormed) {limit k : Nat} :
    v.nat? limit = some k ↔ (Setting.number k).Written v ∧ k ≤ limit := by
  cases v with
  | number n =>
    rw [Json.nat?, Json.Number.unsigned?_eq_some_iff (hv n rfl)]
    simp [Setting.Written, Json.ofNat]
  | _ => simp [Json.nat?, Setting.Written, Json.ofNat]

variable {f : Field} {v : Json} {p q c : Profile}

theorem Field.assign?_of_written (h : (f.value c).Written v) (p : Profile) :
    ∃ q, f.assign? v p = some q ∧ f.value q = f.value c ∧ ∀ g ≠ f, g.value q = g.value p := by
  cases f with
  | port =>
    obtain rfl : v = .ofNat c.port.toNat := h
    have hread := Json.nat?_ofNat (Nat.le_of_lt_succ c.port.toNat_lt)
    refine ⟨_, congrArg (Option.map _) hread, ?_, fun g hg => ?_⟩
    · exact congrArg (fun n : UInt16 => Setting.number n.toNat) UInt16.ofNat_toNat
    · cases g <;> first | exact absurd rfl hg | rfl
  | defaultExpirySecs =>
    obtain rfl : v = .ofNat c.defaultExpirySecs.toNat := h
    have hread := Json.nat?_ofNat (Nat.le_of_lt_succ c.defaultExpirySecs.toNat_lt)
    refine ⟨_, congrArg (Option.map _) hread, ?_, fun g hg => ?_⟩
    · exact congrArg (fun n : UInt64 => Setting.number n.toNat) UInt64.ofNat_toNat
    · cases g <;> first | exact absurd rfl hg | rfl
  | _ =>
    refine ⟨_, congrArg (Option.map _) (text?_eq_some_iff.2 h), rfl, fun g hg => ?_⟩
    cases g <;> first | exact absurd rfl hg | rfl

theorem Field.written_of_assign? (hv : ∀ n, v = .number n → n.WellFormed)
    (h : f.assign? v p = some q) : (f.value q).Written v := by
  cases f with
  | port =>
    obtain ⟨n, hn, rfl⟩ := Option.map_eq_some_iff.1 h
    obtain ⟨hwritten, hle⟩ := (nat?_eq_some_iff hv).1 hn
    have hport : (UInt16.ofNat n).toNat = n := UInt16.toNat_ofNat_of_lt' (Nat.lt_succ_of_le hle)
    rw [Field.value, hport]
    exact hwritten
  | defaultExpirySecs =>
    obtain ⟨n, hn, rfl⟩ := Option.map_eq_some_iff.1 h
    obtain ⟨hwritten, hle⟩ := (nat?_eq_some_iff hv).1 hn
    have hexpiry : (UInt64.ofNat n).toNat = n := UInt64.toNat_ofNat_of_lt' (Nat.lt_succ_of_le hle)
    rw [Field.value, hexpiry]
    exact hwritten
  | _ =>
    obtain ⟨t, ht, rfl⟩ := Option.map_eq_some_iff.1 h
    exact text?_eq_some_iff.1 ht

def given? (m : Json.Quoted × Json) : Option Field := m.1.decode?.bind Field.ofName?

def given (ms : List (Json.Quoted × Json)) : List Field := ms.filterMap given?

variable {m : Json.Quoted × Json} {ms : List (Json.Quoted × Json)} {seen seen' : List Field}

theorem takeMember?_of_given (h : given? m = some f) (seen : List Field) (p : Profile) :
    takeMember? (seen, p) m =
      if f ∈ seen then none else (f.assign? m.2 p).map fun q => (f :: seen, q) := by
  obtain ⟨key, hkey, hf⟩ := Option.bind_eq_some_iff.1 h
  rw [takeMember?, hkey]
  simp only [hf]

theorem takeMember?_of_not_given (hname : m.1.decode?.isSome) (h : given? m = none)
    (st : List Field × Profile) : takeMember? st m = some st := by
  obtain ⟨key, hkey⟩ := Option.isSome_iff_exists.1 hname
  rw [given?, hkey, Option.bind_some] at h
  rw [takeMember?, hkey]
  simp only [h]

theorem isSome_decode?_of_takeMember? {st st' : List Field × Profile}
    (h : takeMember? st m = some st') : m.1.decode?.isSome := by
  cases hname : m.1.decode? with
  | none =>
    rw [takeMember?, hname] at h
    cases h
  | some => rfl

theorem takeMembers?_of_written (hnames : ∀ m ∈ ms, m.1.decode?.isSome) (honce : (given ms).Nodup)
    (hvalues : ∀ m ∈ ms, ∀ f, given? m = some f → (f.value c).Written m.2)
    (hnew : ∀ f ∈ given ms, f ∉ seen) (p : Profile) :
    ∃ seen' q, ms.foldlM takeMember? (seen, p) = some (seen', q) ∧
      ∀ f, f.value q = if f ∈ given ms then f.value c else f.value p := by
  -- Along the members: the fields seen so far are apart from those that are still to come.
  induction ms generalizing seen p with
  | nil => exact ⟨seen, p, rfl, fun f => rfl⟩
  | cons m ms ih =>
    have hvalues' : ∀ m' ∈ ms, ∀ f, given? m' = some f → (f.value c).Written m'.2 :=
      fun m' hm' => hvalues m' (List.mem_cons_of_mem m hm')
    have hnames' : ∀ m' ∈ ms, m'.1.decode?.isSome :=
      fun m' hm' => hnames m' (List.mem_cons_of_mem m hm')
    cases hm : given? m with
    | none =>
      have hgiven : given (m :: ms) = given ms := List.filterMap_cons_none hm
      rw [hgiven] at honce hnew ⊢
      rw [List.foldlM_cons, takeMember?_of_not_given (hnames m List.mem_cons_self) hm]
      exact ih hnames' honce hvalues' hnew p
    | some f =>
      have hgiven : given (m :: ms) = f :: given ms := List.filterMap_cons_some hm
      rw [hgiven] at honce hnew ⊢
      obtain ⟨hf, honce'⟩ := List.nodup_cons.1 honce
      obtain ⟨p', hassign, hset, hother⟩ :=
        Field.assign?_of_written (hvalues m List.mem_cons_self f hm) p
      have hnew' : ∀ g ∈ given ms, g ∉ f :: seen := by
        intro g hg hmem
        obtain rfl | hmem := List.mem_cons.1 hmem
        · exact hf hg
        · exact hnew g (List.mem_cons_of_mem f hg) hmem
      obtain ⟨seen', q, hfold, hq⟩ := ih hnames' honce' hvalues' hnew' p'
      refine ⟨seen', q, ?_, fun g => ?_⟩
      · rw [List.foldlM_cons, takeMember?_of_given hm, if_neg (hnew f List.mem_cons_self), hassign]
        exact hfold
      · by_cases hg : g = f
        · rw [hq, hg, if_neg hf, if_pos List.mem_cons_self, hset]
        · simp only [hq, hother g hg, List.mem_cons, hg, false_or]

theorem written_of_takeMembers? (hv : ∀ m ∈ ms, ∀ n, m.2 = .number n → n.WellFormed)
    (h : ms.foldlM takeMember? (seen, p) = some (seen', q)) :
    (given ms).Nodup ∧ (∀ f ∈ given ms, f ∉ seen) ∧
      ∀ m ∈ ms, ∀ f, given? m = some f → ∃ c, (f.value c).Written m.2 := by
  induction ms generalizing seen p with
  | nil => simp [given]
  | cons m ms ih =>
    rw [List.foldlM_cons] at h
    obtain ⟨⟨seen₁, p₁⟩, hstep, hrest⟩ := Option.bind_eq_some_iff.1 h
    obtain ⟨honce, hnew, hvalues⟩ := ih (fun m' hm' => hv m' (List.mem_cons_of_mem m hm')) hrest
    cases hm : given? m with
    | none =>
      rw [takeMember?_of_not_given (isSome_decode?_of_takeMember? hstep) hm] at hstep
      cases hstep
      have hgiven : given (m :: ms) = given ms := List.filterMap_cons_none hm
      rw [hgiven]
      refine ⟨honce, hnew, fun m' hm' f hf => ?_⟩
      obtain rfl | hm' := List.mem_cons.1 hm'
      · rw [hm] at hf
        cases hf
      · exact hvalues m' hm' f hf
    | some f =>
      rw [takeMember?_of_given hm] at hstep
      split at hstep
      · cases hstep
      · rename_i hf
        obtain ⟨q₁, hassign, he⟩ := Option.map_eq_some_iff.1 hstep
        cases he
        have hgiven : given (m :: ms) = f :: given ms := List.filterMap_cons_some hm
        rw [hgiven]
        refine ⟨List.nodup_cons.2 ⟨fun hmem => hnew f hmem List.mem_cons_self, honce⟩, ?_, ?_⟩
        · intro g hg hmem
          obtain rfl | hg := List.mem_cons.1 hg
          · exact hf hmem
          · exact hnew g hg (List.mem_cons_of_mem f hmem)
        · intro m' hm' g hg
          obtain rfl | hm' := List.mem_cons.1 hm'
          · obtain rfl := Option.some.inj (hm.symm.trans hg)
            exact ⟨_, Field.written_of_assign? (hv m' List.mem_cons_self) hassign⟩
          · exact hvalues m' hm' g hg

theorem load_object {t : Text} (h : Json.Spelt (.object ms) t) :
    load (.content (Utf8.encode t)) =
      match ms.foldlM takeMember? ([], default) with
      | some (_, p) => .ok p
      | none => .error .malformedConfig := by
  simp only [load, Utf8.decode?_encode, Json.parse?_of_spelt h, Option.bind_some, ofJson?]
  cases ms.foldlM takeMember? ([], default) <;> rfl

theorem load_of_written {t : Text} (ht : Json.Spelt (.object ms) t)
    (hnames : ∀ m ∈ ms, m.1.decode?.isSome) (honce : (given ms).Nodup)
    (hvalues : ∀ m ∈ ms, ∀ f, given? m = some f → (f.value c).Written m.2) :
    ∃ p, load (.content (Utf8.encode t)) = .ok p ∧
      ∀ f : Field, f.value p = if f ∈ given ms then f.value c else f.value default := by
  have hnew : ∀ f ∈ given ms, f ∉ [] := fun _ _ => List.not_mem_nil
  obtain ⟨seen, p, hfold, hp⟩ := takeMembers?_of_written hnames honce hvalues hnew default
  refine ⟨p, ?_, hp⟩
  rw [load_object ht, hfold]

theorem load_of_not_written {t : Text} (ht : Json.Spelt (.object ms) t)
    (h : ¬ (given ms).Nodup ∨
      ∃ m ∈ ms, ∃ f, given? m = some f ∧ ∀ p : Profile, ¬ (f.value p).Written m.2) :
    load (.content (Utf8.encode t)) = .error .malformedConfig := by
  rw [load_object ht]
  cases hfold : ms.foldlM takeMember? ([], default) with
  | none => rfl
  | some st =>
    have hv : ∀ m ∈ ms, ∀ n, m.2 = .number n → n.WellFormed := by
      intro m hm n hn
      obtain ⟨u, hu⟩ := ht.exists_spells_of_mem hm
      exact Json.wellFormed_of_spells (hn ▸ hu)
    obtain ⟨honce, -, hvalues⟩ := written_of_takeMembers? hv hfold
    obtain htwice | ⟨m, hm, f, hf, hother⟩ := h
    · exact absurd honce htwice
    · obtain ⟨p, hp⟩ := hvalues m hm f hf
      exact absurd hp (hother p)

theorem Field.written_toJson (f : Field) (c : Profile) : (f.value c).Written (f.toJson c) := by
  cases f with
  | port => rfl
  | defaultExpirySecs => rfl
  | _ => exact ⟨_, rfl, Json.Quoted.decode?_encode _⟩

theorem Field.spells_toJson (f : Field) (c : Profile) :
    Json.Spells (.value (f.toJson c)) (f.toJson c).render := by
  cases f with
  | port => exact Json.spells_ofNat _
  | defaultExpirySecs => exact Json.spells_ofNat _
  | _ => exact Json.spells_ofText _

theorem spelt_render (c : Profile) : Json.Spelt c.toJson c.render := by
  refine Json.spelt_ofMembers fun m hm => ?_
  obtain ⟨f, -, rfl⟩ := List.mem_map.1 hm
  exact f.spells_toJson c

theorem given?_name (f : Field) (v : Json) :
    given? (Json.Quoted.encode f.name, v) = some f := by
  rw [given?, Json.Quoted.decode?_encode, Option.bind_some]
  cases f <;> decide

theorem Field.mem_all (f : Field) : f ∈ Field.all := by cases f <;> decide

def members (c : Profile) : List (Json.Quoted × Json) :=
  Field.all.map fun f => (Json.Quoted.encode f.name, f.toJson c)

theorem toJson_eq (c : Profile) : c.toJson = .object c.members := by
  rw [toJson, Json.ofMembers, List.map_map]
  rfl

theorem given_members (c : Profile) : given c.members = Field.all := by
  simp only [given, members, List.filterMap_map, Function.comp_def, given?_name,
    List.filterMap_some]

theorem isSome_decode?_of_mem_members (hm : m ∈ c.members) : m.1.decode?.isSome := by
  obtain ⟨f, -, rfl⟩ := List.mem_map.1 hm
  rw [Json.Quoted.decode?_encode]
  rfl

theorem written_of_mem_members (hm : m ∈ c.members) (hf : given? m = some f) :
    (f.value c).Written m.2 := by
  obtain ⟨g, -, rfl⟩ := List.mem_map.1 hm
  obtain rfl := Option.some.inj ((given?_name g _).symm.trans hf)
  exact g.written_toJson c

theorem load_render (c : Profile) : load (.content (Utf8.encode c.render)) = .ok c := by
  have honce : (given c.members).Nodup := by
    rw [given_members]
    decide
  obtain ⟨p, hload, hp⟩ := load_of_written (toJson_eq c ▸ spelt_render c)
    (fun _ => isSome_decode?_of_mem_members) honce (fun _ hm _ => written_of_mem_members hm)
  have hpc : p = c := by
    refine eq_of_value fun f => ?_
    rw [hp, given_members, if_pos f.mem_all]
  rw [hload, hpc]

/-- A file is an object in any spelling, with fields in any order and other members between them.
The fields that it gives are as it gives them, and the others as by default; a field given twice, or
with a value that no setting has, is an error; and what is printed is read back. -/
theorem load_overrides (c : Profile) :
    (∀ ms t, Json.Spelt (.object ms) t → (∀ m ∈ ms, m.1.decode?.isSome) → (given ms).Nodup →
      (∀ m ∈ ms, ∀ f, given? m = some f → (f.value c).Written m.2) →
      ∃ p, load (.content (Utf8.encode t)) = .ok p ∧
        ∀ f : Field, f.value p = if f ∈ given ms then f.value c else f.value default) ∧
    (∀ ms t, Json.Spelt (.object ms) t →
      (¬ (given ms).Nodup ∨
        ∃ m ∈ ms, ∃ f, given? m = some f ∧ ∀ p : Profile, ¬ (f.value p).Written m.2) →
      load (.content (Utf8.encode t)) = .error .malformedConfig) ∧
    load (.content (Utf8.encode c.render)) = .ok c :=
  ⟨fun _ _ ht hnames honce hvalues => load_of_written ht hnames honce hvalues,
    fun _ _ ht h => load_of_not_written ht h, load_render c⟩

theorem load_overrides_port :
    load (.content (Utf8.encode
      " \x7b\"note\": [1, \x7b\"port\": null\x7d], \"\\u0070ort\" : 5060\x7d ".toList)) =
        .ok { default with port := 5060 } ∧
    load (.content (Utf8.encode "\x7b\"port\": 5060, \"port\": 5060\x7d".toList)) =
      .error .malformedConfig ∧
    load (.content (Utf8.encode "\x7b\"port\": 65536\x7d".toList)) = .error .malformedConfig := by
  have hall := load_overrides { default with port := 5060 }
  refine ⟨?_, ?_, ?_⟩
  · have ht : Json.Spelt
        (.object [(Json.Quoted.encode "note".toList,
            .array [.ofNat 1, .object [(Json.Quoted.encode "port".toList, .null)]]),
          (.unit 0x70 :: Json.Quoted.encode "ort".toList, .ofNat 5060)])
        " \x7b\"note\": [1, \x7b\"port\": null\x7d], \"\\u0070ort\" : 5060\x7d ".toList :=
      Json.parse?_eq_some_iff.1 (by cbv)
    obtain ⟨p, hload, hp⟩ := hall.1 _ _ ht (by decide) (by decide) (by
      intro m hm f hf
      simp only [List.mem_cons, List.not_mem_nil, or_false] at hm
      obtain rfl | rfl := hm
      · cases hf
      · cases hf
        rfl)
    obtain rfl : p = { default with port := 5060 } := by
      have hgiven : given [(Json.Quoted.encode "note".toList,
            .array [.ofNat 1, .object [(Json.Quoted.encode "port".toList, .null)]]),
          (.unit 0x70 :: Json.Quoted.encode "ort".toList, .ofNat 5060)] = [.port] := by decide
      refine eq_of_value fun f => ?_
      rw [hp, hgiven]
      cases f <;> rfl
    exact hload
  · have ht : Json.Spelt
        (.object [(Json.Quoted.encode "port".toList, .ofNat 5060),
          (Json.Quoted.encode "port".toList, .ofNat 5060)])
        "\x7b\"port\": 5060, \"port\": 5060\x7d".toList :=
      Json.parse?_eq_some_iff.1 (by cbv)
    exact hall.2.1 _ _ ht (.inl (by decide))
  · have ht : Json.Spelt (.object [(Json.Quoted.encode "port".toList, .ofNat 65536)])
        "\x7b\"port\": 65536\x7d".toList :=
      Json.parse?_eq_some_iff.1 (by cbv)
    refine hall.2.1 _ _ ht (.inr ⟨_, List.mem_cons_self, .port, by decide, fun p hp => ?_⟩)
    have hnone : (Json.ofNat 65536).nat? 65535 = none := by decide
    have hread := Json.nat?_ofNat (Nat.le_of_lt_succ p.port.toNat_lt)
    rw [show Json.ofNat p.port.toNat = .ofNat 65536 from hp.symm, hnone] at hread
    cases hread

end SipTestbed.Profile
