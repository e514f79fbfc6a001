import UiScenario.Parameter.Read
import UiScenario.Proofs.Resolution

/-!
The names of parameters that are read from a file. An object that is read has every name once, and
a name is checked before it is bound.
-/

namespace UiScenario

namespace Json

variable {members : List (String × Json)} {value : Json} {name : String}

/-- No object in a value has a name twice. -/
inductive Distinct : Json → Prop
  | null : Distinct .null
  | bool (b : Bool) : Distinct (.bool b)
  | number (n : Number) : Distinct (.number n)
  | string (s : String) : Distinct (.string s)
  | array {items : List Json} (h : ∀ j ∈ items, Distinct j) : Distinct (.array items)
  | object {members : List (String × Json)} (hn : (members.map (·.1)).Nodup)
      (h : ∀ m ∈ members, Distinct m.2) : Distinct (.object members)

theorem Distinct.empty : Distinct (.object []) :=
  .object (by simp) (List.forall_mem_nil _)

theorem mem_names_insertMember {n : String} :
    n ∈ (insertMember name value members).map (·.1) ↔ n = name ∨ n ∈ members.map (·.1) := by
  induction members with
  | nil => simp [insertMember]
  | cons m rest ih =>
    obtain ⟨k, v⟩ := m
    by_cases hk : k = name
    · simp [insertMember, hk]
    · simp only [insertMember, if_neg hk, List.map_cons, List.mem_cons, ih]
      exact or_left_comm

theorem nodup_insertMember (h : (members.map (·.1)).Nodup) :
    ((insertMember name value members).map (·.1)).Nodup := by
  induction members with
  | nil => simp [insertMember]
  | cons m rest ih =>
    obtain ⟨k, v⟩ := m
    by_cases hk : k = name
    · simpa [insertMember, hk] using h
    · obtain ⟨hm, hrest⟩ := List.nodup_cons.1 h
      simp only [insertMember, if_neg hk, List.map_cons, List.nodup_cons]
      exact ⟨fun hmem => (mem_names_insertMember.1 hmem).elim hk hm, ih hrest⟩

theorem eq_or_mem_of_mem_insertMember {m : String × Json}
    (h : m ∈ insertMember name value members) : m.2 = value ∨ m ∈ members := by
  induction members with
  | nil => exact .inl (by rw [List.mem_singleton.1 h])
  | cons k rest ih =>
    rw [insertMember] at h
    split at h
    · rcases List.mem_cons.1 h with rfl | h
      · exact .inl rfl
      · exact .inr (List.mem_cons_of_mem _ h)
    · rcases List.mem_cons.1 h with rfl | h
      · exact .inr (List.mem_cons_self ..)
      · exact (ih h).imp_right (List.mem_cons_of_mem _)

theorem Distinct.insert (h : Distinct (.object members)) (hv : Distinct value) :
    Distinct (.object (insertMember name value members)) := by
  cases h with
  | object hn hm =>
    refine .object (nodup_insertMember hn) fun m hmem => ?_
    rcases eq_or_mem_of_mem_insertMember hmem with h | h
    · rw [h]; exact hv
    · exact hm m h

/-- Reading a value, items or members: what is read has no name twice in an object. The readers call
    each other with less fuel, so this is one induction. -/
theorem distinct_readers (fuel : Nat) :
    (∀ depth cs j rest, readValue? depth fuel cs = some (j, rest) → Distinct j) ∧
    (∀ depth cs js rest, readItems? depth fuel cs = some (js, rest) → ∀ j ∈ js, Distinct j) ∧
    ∀ depth members cs ms rest, Distinct (.object members) →
      readMembers? depth fuel members cs = some (ms, rest) → Distinct (.object ms) := by
  induction fuel with
  | zero => simp [readValue?, readItems?, readMembers?]
  | succ fuel ih =>
    obtain ⟨ihValue, ihItems, ihMembers⟩ := ih
    refine ⟨?_, ?_, ?_⟩
    · intro depth cs j rest h
      rw [readValue?] at h
      split at h
      · obtain ⟨_, -, h⟩ := Option.map_eq_some_iff.1 h; cases h; exact .null
      · obtain ⟨_, -, h⟩ := Option.map_eq_some_iff.1 h; cases h; exact .bool _
      · obtain ⟨_, -, h⟩ := Option.map_eq_some_iff.1 h; cases h; exact .bool _
      · obtain ⟨_, -, h⟩ := Option.map_eq_some_iff.1 h; cases h; exact .string _
      · obtain ⟨_, -, h⟩ := Option.map_eq_some_iff.1 h; cases h; exact .number _
      · split at h
        · cases h
        split at h
        · cases h; exact .array (List.forall_mem_nil _)
        · obtain ⟨⟨js, _⟩, hjs, h⟩ := Option.map_eq_some_iff.1 h
          cases h
          exact .array (ihItems _ _ js _ hjs)
      · split at h
        · cases h
        split at h
        · cases h; exact .empty
        · obtain ⟨⟨ms, _⟩, hms, h⟩ := Option.map_eq_some_iff.1 h
          cases h
          exact ihMembers _ _ _ ms _ .empty hms
      · obtain ⟨_, -, h⟩ := Option.map_eq_some_iff.1 h; cases h; exact .number _
    · intro depth cs js rest h
      rw [readItems?] at h
      obtain ⟨⟨x, rest₁⟩, hx, h⟩ := Option.bind_eq_some_iff.1 h
      have hx := ihValue _ _ x _ hx
      dsimp only at h
      split at h
      · obtain ⟨⟨xs, _⟩, hxs, h⟩ := Option.bind_eq_some_iff.1 h
        cases h
        exact List.forall_mem_cons.2 ⟨hx, ihItems _ _ xs _ hxs⟩
      · cases h
        exact List.forall_mem_singleton.2 hx
      · cases h
    · intro depth members cs ms rest hm h
      rw [readMembers?] at h
      split at h
      · obtain ⟨⟨name, rest₁⟩, -, h⟩ := Option.bind_eq_some_iff.1 h
        dsimp only at h
        split at h
        · obtain ⟨⟨value, rest₂⟩, hv, h⟩ := Option.bind_eq_some_iff.1 h
          have hmore : Distinct (.object (insertMember name value members)) :=
            hm.insert (ihValue _ _ value _ hv)
          dsimp only at h
          split at h
          · exact ihMembers _ _ _ ms _ hmore h
          · cases h; exact hmore
          · cases h
        · cases h
      · cases h

/-- In a value that is read from a text, no object has a name twice. -/
theorem distinct_of_read? {text : String} {j : Json} (h : read? text = some j) : Distinct j := by
  obtain ⟨⟨value, rest⟩, hv, h⟩ := Option.bind_eq_some_iff.1 h
  dsimp only at h
  split at h
  · cases h
    exact (distinct_readers _).1 _ _ _ _ hv
  · cases h

end Json

namespace Combination

/-- A name that a parameter can have. -/
def Bindable (name : String) : Prop :=
  isBindingName name = true ∧ name ∉ reservedNames

instance (name : String) : Decidable (Bindable name) :=
  inferInstanceAs (Decidable (_ ∧ _))

theorem checkName_eq_ok {index : Nat} : checkName index name = .ok () ↔ Bindable name := by
  unfold checkName Bindable
  cases isBindingName name <;> simp

theorem names_of_readValues {index : Nat} {values : List (String × ParamValue)}
    (h : readValues index members = .ok values) :
    values.map (·.1) = members.map (·.1) ∧ ∀ x ∈ values.map (·.1), Bindable x := by
  have hone : ∀ (m : String × Json) (v : String × ParamValue), (do
      checkName index m.1
      return (m.1, ← ParamValue.ofJson m.2)) = Except.ok v → v.1 = m.1 ∧ Bindable v.1 := by
    intro m v h
    obtain ⟨_, hc, h⟩ := bind_eq_ok.1 h
    obtain ⟨_, -, h⟩ := bind_eq_ok.1 h
    cases h
    exact ⟨rfl, checkName_eq_ok.1 hc⟩
  refine ⟨map_of_mapM_eq_ok (fun m v h => (hone m v h).1) h, ?_⟩
  intro x hx
  obtain ⟨v, hv, rfl⟩ := List.mem_map.1 hx
  obtain ⟨m, -, hm⟩ := exists_of_mem_mapM h hv
  exact (hone m v hm).2

theorem wrapped?_eq_some {values : List (String × Json)} (h : wrapped? members = some values) :
    ("values", Json.object values) ∈ members := by
  unfold wrapped? at h
  split at h
  · next inner hl =>
    split at h
    · cases h
      obtain ⟨front, rest, rfl, -⟩ := List.lookup_eq_some_iff.1 hl
      exact List.mem_append_right _ (List.mem_cons_self ..)
    · cases h
  · cases h

theorem names_of_ofJson {index : Nat} {j : Json} {c : Combination} (hj : j.Distinct)
    (h : ofJson index j = .ok c) : c.names.Nodup ∧ ∀ x ∈ c.names, Bindable x := by
  have hmembers : ∀ {members : List (String × Json)} {values : List (String × ParamValue)},
      Json.Distinct (.object members) → readValues index members = .ok values →
      (values.map (·.1)).Nodup ∧ ∀ x ∈ values.map (·.1), Bindable x := by
    intro members values hd hv
    obtain ⟨hn, hb⟩ := names_of_readValues hv
    cases hd with
    | object hnodup _ => exact ⟨hn ▸ hnodup, hb⟩
  cases hj with
  | @object members hn hm =>
    rw [ofJson] at h
    split at h
    · next inner hw =>
      obtain ⟨_, -, h⟩ := bind_eq_ok.1 h
      obtain ⟨values, hv, h⟩ := bind_eq_ok.1 h
      cases h
      exact hmembers (hm _ (wrapped?_eq_some hw)) hv
    · obtain ⟨values, hv, h⟩ := bind_eq_ok.1 h
      cases h
      exact hmembers (.object hn hm) hv
  | null | bool | number | string | array => cases h

/-- The parameters of a combination that is read have different names, all of which can be bound. -/
theorem names_of_readAll {text : String} {combinations : List Combination}
    (h : readAll text = .ok combinations) :
    ∀ c ∈ combinations, c.names.Nodup ∧ ∀ x ∈ c.names, Bindable x := by
  have hlist : ∀ (items : List Json) (index : Nat) (cs : List Combination),
      (∀ j ∈ items, j.Distinct) → ofJsonList index items = .ok cs →
      ∀ c ∈ cs, c.names.Nodup ∧ ∀ x ∈ c.names, Bindable x := by
    intro items
    induction items with
    | nil => intro _ cs _ h; cases h; exact List.forall_mem_nil _
    | cons j rest ih =>
      intro index cs hd h
      obtain ⟨c, hc, h⟩ := bind_eq_ok.1 h
      obtain ⟨cs', hcs, h⟩ := bind_eq_ok.1 h
      cases h
      obtain ⟨hj, hrest⟩ := List.forall_mem_cons.1 hd
      exact List.forall_mem_cons.2 ⟨names_of_ofJson hj hc, ih _ cs' hrest hcs⟩
  unfold readAll at h
  split at h
  · cases h
  · next items hr =>
    cases Json.distinct_of_read? hr with
    | array hd => exact hlist items 1 combinations hd h
  · cases h

end Combination

end UiScenario
