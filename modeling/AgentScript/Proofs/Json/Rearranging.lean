import AgentScript.Proofs.Json.Wholeness
import Mathlib.Data.List.Perm.Lattice

/-!
# Objects rearranged

The members of an object are rearranged if they change places, if members with keys that nobody
declared come in between, and if the values of some are exchanged for values that mean the same
(`Rearranges`).  What comes in has to be a plain value that is not nested too deep (`Plain`): it is
passed over by a record that is read from the text, but within a plain value it is read with the
rest, where only so many levels are allowed.

A record that is read from an object is the same after its members are rearranged
(`Assembly.ofMembers_rearranges`).  A plain value shows its members in the order of their keys, each
key once; among the keys that a record declares nothing is lost by that if none of them was there
twice (`arrange_filter`), so a record that is read from a plain value is the same as well
(`Assembly.ofMembers_arrange`).
-/

namespace AgentScript.Json

variable {ρ : Type}

/-! ## Levels -/

namespace Draft

mutual

/-- How many arrays and objects lie inside one another. -/
def levels : Draft → Nat
  | .array items _ => itemLevels items + 1
  | .object members _ => memberLevels members + 1
  | _ => 0

def itemLevels : List Draft → Nat
  | [] => 0
  | d :: ds => max (levels d) (itemLevels ds)

def memberLevels : List (StringText × Draft) → Nat
  | [] => 0
  | (_, d) :: ms => max (levels d) (memberLevels ms)

end

mutual

/-- A plain value may be read wherever enough levels are left. -/
theorem toValue_of_levels_le : ∀ (d : Draft) (depth depth' : Nat) (v : Value),
    d.toValue depth = .ok v → d.levels ≤ depth' → d.toValue depth' = .ok v
  | .null, _, _, _, h, _ => by rw [toValue] at h ⊢; exact h
  | .bool _, _, _, _, h, _ => by rw [toValue] at h ⊢; exact h
  | .number _, _, _, _, h, _ => by rw [toValue] at h ⊢; exact h
  | .string _, _, _, _, h, _ => by rw [toValue] at h ⊢; exact h
  | .broken _, _, _, _, h, _ => by rw [toValue] at h; cases h
  | .array _ _, 0, _, _, h, _ => by rw [toValue] at h; cases h
  | .object _ _, 0, _, _, h, _ => by rw [toValue] at h; cases h
  | .array _ _, _ + 1, 0, _, _, hlevels => by rw [levels] at hlevels; omega
  | .object _ _, _ + 1, 0, _, _, hlevels => by rw [levels] at hlevels; omega
  | .array items ending, depth + 1, depth' + 1, v, h, hlevels => by
    rw [levels] at hlevels
    rw [toValue] at h
    obtain ⟨vs, hvs, h⟩ := exists_of_bind_eq_ok h
    have hitems := toValues_of_levels_le items depth depth' vs hvs (by omega)
    rw [toValue, hitems, ok_bind]
    exact h
  | .object members ending, depth + 1, depth' + 1, v, h, hlevels => by
    rw [levels] at hlevels
    rw [toValue] at h
    obtain ⟨vs, hvs, h⟩ := exists_of_bind_eq_ok h
    have hmembers := toMembers_of_levels_le members depth depth' vs hvs (by omega)
    rw [toValue, hmembers, ok_bind]
    exact h

theorem toValues_of_levels_le : ∀ (ds : List Draft) (depth depth' : Nat) (vs : List Value),
    toValues depth ds = .ok vs → itemLevels ds ≤ depth' → toValues depth' ds = .ok vs
  | [], _, _, _, h, _ => by rw [toValues] at h ⊢; exact h
  | d :: ds, depth, depth', vs, h, hlevels => by
    rw [itemLevels] at hlevels
    rw [toValues] at h
    obtain ⟨v, hv, h⟩ := exists_of_bind_eq_ok h
    obtain ⟨rest, hrest, h⟩ := exists_of_bind_eq_ok h
    rw [toValues, toValue_of_levels_le d depth depth' v hv (by omega), ok_bind,
      toValues_of_levels_le ds depth depth' rest hrest (by omega), ok_bind]
    exact h

theorem toMembers_of_levels_le : ∀ (ms : List (StringText × Draft)) (depth depth' : Nat)
    (vs : List (String × Value)), toMembers depth ms = .ok vs → memberLevels ms ≤ depth' →
      toMembers depth' ms = .ok vs
  | [], _, _, _, h, _ => by rw [toMembers] at h ⊢; exact h
  | (key, d) :: ms, depth, depth', vs, h, hlevels => by
    rw [memberLevels] at hlevels
    rw [toMembers] at h
    obtain ⟨k, hk, h⟩ := exists_of_bind_eq_ok h
    obtain ⟨v, hv, h⟩ := exists_of_bind_eq_ok h
    obtain ⟨rest, hrest, h⟩ := exists_of_bind_eq_ok h
    rw [toMembers, hk, ok_bind, toValue_of_levels_le d depth depth' v hv (by omega), ok_bind,
      toMembers_of_levels_le ms depth depth' rest hrest (by omega), ok_bind]
    exact h

end

end Draft

/-- A plain value of less than a hundred levels. -/
structure Plain (d : Draft) : Prop where
  value : ∃ v, d.toValue depthLimit = .ok v
  levels : d.levels < 100

lemma plain_iff {d : Draft} : Plain d ↔ (d.toValue depthLimit).isOk = true ∧ d.levels < 100 := by
  constructor
  · rintro ⟨⟨v, hv⟩, hlevels⟩
    rw [hv]
    exact ⟨rfl, hlevels⟩
  · rintro ⟨hok, hlevels⟩
    cases hv : d.toValue depthLimit with
    | error fault => rw [hv] at hok; cases hok
    | ok v => exact ⟨⟨v, hv⟩, hlevels⟩

instance (d : Draft) : Decidable (Plain d) := decidable_of_iff' _ plain_iff

lemma Plain.fault? {d : Draft} (h : Plain d) : d.fault? = none := by
  obtain ⟨v, hv⟩ := h.value
  exact (Draft.fault?_eq_none_iff d).2 (d.whole_of_toValue depthLimit v hv)

/-! ## Members of drafts -/

/-- A member with a key that is not declared. -/
structure Undeclared (declared : List String) (m : StringText × Draft) : Prop where
  key : ∃ key, m.1.value = .ok key ∧ key ∉ declared
  plain : Plain m.2

/-- A member whose value is exchanged for one that may stand for it, under the key that it has. -/
structure Kept (keep : String → Draft → Draft → Prop) (m n : StringText × Draft) : Prop where
  key : n.1 = m.1
  value : ∃ key, m.1.value = .ok key ∧ keep key m.2 n.2

/-- The members are kept, others are added that are not declared, and all of them are put in any
order. -/
def Rearranges (declared : List String) (keep : String → Draft → Draft → Prop)
    (ms ms' : List (StringText × Draft)) : Prop :=
  ∃ kept added, List.Forall₂ (Kept keep) ms kept ∧ (∀ m ∈ added, Undeclared declared m) ∧
    ms'.Perm (kept ++ added)

namespace Assembly

/-- Exchanging a value for one that may stand for it keeps the records related. -/
def Carries {σ : Type} [Source σ] {shape : RecordShape σ ρ} (A : Assembly shape)
    (R : A.π → A.π → Prop) (keep : String → σ → σ → Prop) : Prop :=
  ∀ key s s', keep key s s' → ∀ p q p₁, R p q → setFields A.fields p key s = .ok p₁ →
    ∃ q₁, setFields A.fields q key s' = .ok q₁ ∧ R p₁ q₁

lemma carries_eq {σ : Type} [Source σ] {shape : RecordShape σ ρ} (A : Assembly shape) :
    A.Carries Eq fun _ => Eq := by
  rintro key s _ rfl p _ p₁ rfl hp₁
  exact ⟨p₁, hp₁, rfl⟩

/-- Rearranging the members of an object keeps the records related. -/
theorem ofMembers_rearranges {shape : RecordShape Draft ρ} (A : Assembly shape)
    {R : A.π → A.π → Prop} {keep : String → Draft → Draft → Prop} (hcarries : A.Carries R keep)
    (hempty : R A.empty A.empty) {S : ρ → ρ → Prop}
    (hfinish : ∀ p q r, R p q → A.finish p = .ok r → ∃ r', A.finish q = .ok r' ∧ S r r')
    {ms ms' : List (StringText × Draft)} {ending : Ending} {r : ρ}
    (h : Rearranges A.keys keep ms ms') (hr : shape.ofMembers (Draft.keyed ms) ending = .ok r) :
    ∃ r', shape.ofMembers (Draft.keyed ms') ending = .ok r' ∧ S r r' := by
  obtain ⟨kept, added, hkept, hadded, hperm⟩ := h
  obtain ⟨p, hp, hr⟩ := A.ofMembers_eq_ok.1 hr
  -- in three steps: values are exchanged in place, the added members follow, all change places
  have hexchange : List.Forall₂ (fun m n => n.1 = m.1 ∧ ∀ key p q p₁, m.1 = .ok key → R p q →
      setFields A.fields p key m.2 = .ok p₁ →
        ∃ q₁, setFields A.fields q key n.2 = .ok q₁ ∧ R p₁ q₁)
      (Draft.keyed ms) (Draft.keyed kept) := by
    rw [Draft.keyed, Draft.keyed, List.forall₂_map_left_iff, List.forall₂_map_right_iff]
    refine hkept.imp fun m n hmn => ⟨congrArg StringText.value hmn.key, ?_⟩
    intro key p q p₁ hkey hpq hp₁
    obtain ⟨key', hkey', hkeep⟩ := hmn.value
    obtain rfl := Except.ok.inj (hkey.symm.trans hkey')
    exact hcarries key m.2 n.2 hkeep p q p₁ hpq hp₁
  obtain ⟨q, hq, hpq⟩ := foldMembers_forall₂ hexchange hempty hp
  obtain ⟨r', hr', hS⟩ := hfinish p q r hpq hr
  have hpassed : ∀ m ∈ Draft.keyed added,
      ∃ key, m.1 = .ok key ∧ key ∉ A.keys ∧ Source.skip m.2 = none := by
    intro m hm
    obtain ⟨n, hn, rfl⟩ := List.mem_map.1 hm
    obtain ⟨key, hkey, hnot⟩ := (hadded n hn).key
    exact ⟨key, hkey, hnot, (hadded n hn).plain.fault?⟩
  have hmore : shape.ofMembers (Draft.keyed (kept ++ added)) ending = .ok r' := by
    rw [Draft.keyed, List.map_append]
    exact (A.ofMembers_append hpassed).2 (A.ofMembers_eq_ok.2 ⟨q, hq, hr'⟩)
  exact ⟨r', A.ofMembers_perm (hperm.symm.map _) hmore, hS⟩

/-- The same where the values stay the same or are decoded to the same. -/
theorem ofMembers_eq_of_rearranges {shape : RecordShape Draft ρ} (A : Assembly shape)
    {keep : String → Draft → Draft → Prop} (hcarries : A.Carries Eq keep)
    {ms ms' : List (StringText × Draft)} {ending : Ending} {r : ρ}
    (h : Rearranges A.keys keep ms ms') (hr : shape.ofMembers (Draft.keyed ms) ending = .ok r) :
    shape.ofMembers (Draft.keyed ms') ending = .ok r := by
  have hfinish : ∀ p q r, p = q → A.finish p = .ok r → ∃ r', A.finish q = .ok r' ∧ r = r' := by
    rintro p _ r rfl hr
    exact ⟨r, hr, rfl⟩
  obtain ⟨r', hr', rfl⟩ := A.ofMembers_rearranges hcarries rfl hfinish h hr
  exact hr'

end Assembly

/-! ## Members of plain values -/

namespace Assembly

variable {shape : RecordShape Value ρ} (A : Assembly shape) {ms ms' added : List (String × Value)}
  {r : ρ}

def declares (key : String) : Bool := key ∈ A.keys

lemma declares_iff {key : String} : A.declares key = true ↔ key ∈ A.keys := decide_eq_true_iff

/-- Only the members that the record declares count. -/
lemma ofMembers_filter : shape.ofMembers (shown id (ms.filter (A.declares ·.1))) .closed = .ok r ↔
    shape.ofMembers (shown id ms) .closed = .ok r := by
  have hperm := List.filter_append_perm (fun m : String × Value => A.declares m.1) ms
  have hpassed : ∀ m ∈ shown id (ms.filter fun m => !A.declares m.1),
      ∃ key, m.1 = .ok key ∧ key ∉ A.keys ∧ Source.skip m.2 = none := by
    intro m hm
    obtain ⟨n, hn, rfl⟩ := List.mem_map.1 hm
    have hnot := (List.mem_filter.1 hn).2
    rw [Bool.not_eq_true', ← Bool.not_eq_true, A.declares_iff] at hnot
    exact ⟨n.1, rfl, hnot, rfl⟩
  rw [← A.ofMembers_append hpassed, shown, shown, ← List.map_append]
  exact ⟨A.ofMembers_perm (hperm.map _), A.ofMembers_perm (hperm.symm.map _)⟩

include A in
/-- A record that is read from a plain value is the same after the members of the value are
rearranged. -/
theorem ofMembers_arrange (hkeys : (ms.map (·.1)).Nodup) (hadded : ∀ m ∈ added, m.1 ∉ A.keys)
    (hperm : ms'.Perm (ms ++ added))
    (hr : shape.ofMembers (shown id (arrange ms)) .closed = .ok r) :
    shape.ofMembers (shown id (arrange ms')) .closed = .ok r := by
  have hnone : added.filter (A.declares ·.1) = [] := by
    rw [List.filter_eq_nil_iff]
    intro m hm
    rw [A.declares_iff]
    exact hadded m hm
  have hdeclared : (ms'.filter (A.declares ·.1)).Perm (ms.filter (A.declares ·.1)) := by
    have hfilter := hperm.filter (A.declares ·.1)
    rwa [List.filter_append, hnone, List.append_nil] at hfilter
  have hne : (ms.filter (A.declares ·.1)).Pairwise fun m n => m.1 ≠ n.1 :=
    (List.pairwise_map.1 hkeys).filter _
  have hne' : (ms'.filter (A.declares ·.1)).Pairwise fun m n => m.1 ≠ n.1 :=
    (hdeclared.pairwise_iff fun h => Ne.symm h).2 hne
  have hsame : ((arrange ms).filter (A.declares ·.1)).Perm
      ((arrange ms').filter (A.declares ·.1)) :=
    (arrange_filter hne).trans (hdeclared.symm.trans (arrange_filter hne').symm)
  rw [← A.ofMembers_filter] at hr ⊢
  exact A.ofMembers_perm (hsame.map _) hr

end Assembly

/-! ## From drafts to plain values -/

/-- A member of a plain value where it was read. -/
def ReadAs (depth : Nat) (m : StringText × Draft) (v : String × Value) : Prop :=
  m.1.value = .ok v.1 ∧ m.2.toValue depth = .ok v.2

lemma toMembers_eq_ok {depth : Nat} {ms : List (StringText × Draft)} {vs : List (String × Value)} :
    Draft.toMembers depth ms = .ok vs ↔ List.Forall₂ (ReadAs depth) ms vs := by
  induction ms generalizing vs with
  | nil => simp [Draft.toMembers, eq_comm]
  | cons m ms ih =>
    rw [Draft.toMembers, List.forall₂_cons_left_iff]
    constructor
    · intro h
      obtain ⟨key, hkey, h⟩ := exists_of_bind_eq_ok h
      obtain ⟨v, hv, h⟩ := exists_of_bind_eq_ok h
      obtain ⟨rest, hrest, h⟩ := exists_of_bind_eq_ok h
      exact ⟨(key, v), rest, ⟨hkey, hv⟩, ih.1 hrest, (Except.ok.inj h).symm⟩
    · rintro ⟨v, rest, ⟨hkey, hv⟩, hrest, rfl⟩
      rw [hkey, ok_bind, hv, ok_bind, ih.2 hrest, ok_bind]
      rfl

/-- Keys that come only once. -/
def NoRepeats (ms : List (StringText × Draft)) : Prop := (ms.map (·.1.value)).Nodup

lemma nodup_of_noRepeats {depth : Nat} {ms : List (StringText × Draft)}
    {vs : List (String × Value)} (h : NoRepeats ms) (hread : List.Forall₂ (ReadAs depth) ms vs) :
    (vs.map (·.1)).Nodup := by
  have hkeys : ms.map (·.1.value) = (vs.map (·.1)).map Except.ok := by
    rw [List.map_map]
    induction hread with
    | nil => rfl
    | cons hm _ ih => rw [List.map_cons, List.map_cons, ih (List.nodup_cons.1 h).2, hm.1]; rfl
  rw [NoRepeats, hkeys] at h
  exact h.of_map

/-- Members of which only the order changes and to which others are added, as they are read. -/
lemma exists_readAs_of_rearranges {declared : List String} {depth : Nat}
    {ms ms' : List (StringText × Draft)} {vs : List (String × Value)} (hdepth : 99 ≤ depth)
    (h : Rearranges declared (fun _ => Eq) ms ms') (hread : List.Forall₂ (ReadAs depth) ms vs) :
    ∃ added vs', List.Forall₂ (ReadAs depth) ms' vs' ∧ vs'.Perm (vs ++ added) ∧
      ∀ v ∈ added, v.1 ∉ declared := by
  obtain ⟨kept, junk, hkept, hjunk, hperm⟩ := h
  -- no value is exchanged here, so the members that are kept are those that were there
  obtain rfl : ms = kept := by
    rw [← List.forall₂_eq_eq_eq]
    refine hkept.imp fun m n hmn => ?_
    obtain ⟨_, -, hvalue⟩ := hmn.value
    exact Prod.ext hmn.key.symm hvalue
  have hadded : ∃ added, List.Forall₂ (ReadAs depth) junk added ∧ ∀ v ∈ added, v.1 ∉ declared := by
    clear hperm
    induction junk with
    | nil => exact ⟨[], .nil, nofun⟩
    | cons m junk ih =>
      rw [List.forall_mem_cons] at hjunk
      obtain ⟨added, hread, hnot⟩ := ih hjunk.2
      obtain ⟨key, hkey, hundeclared⟩ := hjunk.1.key
      obtain ⟨v, hv⟩ := hjunk.1.plain.value
      have hlevels := hjunk.1.plain.levels
      have hv' := m.2.toValue_of_levels_le depthLimit depth v hv (by omega)
      exact ⟨(key, v) :: added, .cons ⟨hkey, hv'⟩ hread, List.forall_mem_cons.2 ⟨hundeclared, hnot⟩⟩
  obtain ⟨added, hadded, hnot⟩ := hadded
  obtain ⟨vs', hvs', hvs⟩ := List.perm_comp_forall₂ hperm (List.rel_append hread hadded)
  exact ⟨added, vs', hvs', hvs, hnot⟩

end AgentScript.Json
