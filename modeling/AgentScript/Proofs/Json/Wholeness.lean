import AgentScript.Proofs.Json.Fields

/-!
# What is decoded is whole

A decoder that succeeds has read all of its draft, so the draft is the tree of a text
(`Strict`).  A value that is passed over has no fault, which is the same (`fault?_eq_none_iff`); a
list, a record and a plain value succeed only at their closing brackets.  A record that is read from
an array takes the items one after the other, and none may be left (`Takes`).
-/

namespace AgentScript.Json

variable {ρ α β : Type}

lemma exists_of_map_eq_ok {ε : Type} {x : Except ε α} {f : α → β} {b : β} (h : f <$> x = .ok b) :
    ∃ a, x = .ok a ∧ f a = b := by
  cases x with
  | error e => cases h
  | ok a => exact ⟨a, rfl, Except.ok.inj h⟩

lemma ofFault_eq_ok {x : Except Fault α} {a : α} : Decoded.ofFault x = .ok a ↔ x = .ok a := by
  cases x <;> simp [Decoded.ofFault]

/-! ## Strings and endings -/

lemma fault_of_joinUnits {fault : Option Fault} {units : List StringUnit} {cs : List Char}
    (h : joinUnits fault units = .ok cs) : fault = none := by
  fun_induction joinUnits fault units generalizing cs with
  | case1 => assumption
  | case3 _ _ ih =>
    obtain ⟨ds, hds, -⟩ := exists_of_map_eq_ok h
    exact ih hds
  | case5 _ _ _ _ _ _ ih =>
    obtain ⟨ds, hds, -⟩ := exists_of_map_eq_ok h
    exact ih hds
  | case9 _ _ _ _ ih =>
    obtain ⟨ds, hds, -⟩ := exists_of_map_eq_ok h
    exact ih hds
  | _ => cases h

lemma fault_of_value {t : StringText} {s : String} (h : t.value = .ok s) : t.fault = none := by
  obtain ⟨cs, hcs, -⟩ := exists_of_map_eq_ok h
  exact fault_of_joinUnits hcs

lemma Ending.fault?_eq_none_iff {ending : Ending} : ending.fault? = none ↔ ending = .closed := by
  cases ending <;> simp [Ending.fault?]

lemma Ending.check_eq_ok {ending : Ending} {u : Unit} :
    ending.check = .ok u ↔ ending = .closed := by
  cases ending <;> simp [Ending.check, Ending.fault?]

namespace Draft

/-! ## Plain values and values that are passed over -/

mutual

/-- Passing over a value asks for nothing but that it is whole. -/
theorem fault?_eq_none_iff : ∀ d : Draft, d.fault? = none ↔ d.Whole
  | .null => by simp [fault?, Whole]
  | .bool b => by simp [fault?, Whole]
  | .number t => by simp [fault?, Whole]
  | .string t => by simp [fault?]
  | .array items ending => by
    rw [fault?, Whole, Option.or_eq_none_iff, faultOfItems?_eq_none_iff items,
      Ending.fault?_eq_none_iff]
  | .object members ending => by
    rw [fault?, Whole, Option.or_eq_none_iff, faultOfMembers?_eq_none_iff members,
      Ending.fault?_eq_none_iff]
  | .broken fault => by
    unfold fault?
    split <;> simp_all

theorem faultOfItems?_eq_none_iff : ∀ ds : List Draft, faultOfItems? ds = none ↔ WholeItems ds
  | [] => by simp [faultOfItems?, WholeItems]
  | d :: ds => by
    rw [faultOfItems?, WholeItems, Option.or_eq_none_iff, fault?_eq_none_iff d,
      faultOfItems?_eq_none_iff ds]

theorem faultOfMembers?_eq_none_iff : ∀ ms : List (StringText × Draft),
    faultOfMembers? ms = none ↔ WholeMembers ms
  | [] => by simp [faultOfMembers?, WholeMembers]
  | (key, d) :: ms => by
    rw [faultOfMembers?, WholeMembers, Option.or_eq_none_iff, Option.or_eq_none_iff,
      fault?_eq_none_iff d, faultOfMembers?_eq_none_iff ms]

end

mutual

theorem whole_of_toValue : ∀ (d : Draft) (depth : Nat) (v : Value), d.toValue depth = .ok v →
    d.Whole
  | .null, _, _, _ => trivial
  | .bool _, _, _, _ => trivial
  | .number _, _, _, _ => trivial
  | .string t, depth, v, h => by
    rw [toValue] at h
    obtain ⟨s, hs, -⟩ := exists_of_map_eq_ok h
    exact (whole_string t).2 (fault_of_value hs)
  | .array items ending, 0, v, h => by
    rw [toValue] at h
    cases h
  | .array items ending, depth + 1, v, h => by
    rw [toValue] at h
    obtain ⟨vs, hvs, h⟩ := exists_of_bind_eq_ok h
    obtain ⟨_, hcheck, h⟩ := exists_of_bind_eq_ok h
    rw [Whole]
    exact ⟨whole_of_toValues items depth vs hvs, Ending.check_eq_ok.1 hcheck⟩
  | .object members ending, 0, v, h => by
    rw [toValue] at h
    cases h
  | .object members ending, depth + 1, v, h => by
    rw [toValue] at h
    obtain ⟨vs, hvs, h⟩ := exists_of_bind_eq_ok h
    obtain ⟨_, hcheck, h⟩ := exists_of_bind_eq_ok h
    rw [Whole]
    exact ⟨whole_of_toMembers members depth vs hvs, Ending.check_eq_ok.1 hcheck⟩
  | .broken fault, depth, v, h => by
    rw [toValue] at h
    cases h

theorem whole_of_toValues : ∀ (ds : List Draft) (depth : Nat) (vs : List Value),
    toValues depth ds = .ok vs → WholeItems ds
  | [], _, _, _ => trivial
  | d :: ds, depth, vs, h => by
    rw [toValues] at h
    obtain ⟨v, hv, h⟩ := exists_of_bind_eq_ok h
    obtain ⟨rest, hrest, h⟩ := exists_of_bind_eq_ok h
    rw [WholeItems]
    exact ⟨whole_of_toValue d depth v hv, whole_of_toValues ds depth rest hrest⟩

theorem whole_of_toMembers : ∀ (ms : List (StringText × Draft)) (depth : Nat)
    (vs : List (String × Value)), toMembers depth ms = .ok vs → WholeMembers ms
  | [], _, _, _ => trivial
  | (key, d) :: ms, depth, vs, h => by
    rw [toMembers] at h
    obtain ⟨k, hk, h⟩ := exists_of_bind_eq_ok h
    obtain ⟨v, hv, h⟩ := exists_of_bind_eq_ok h
    obtain ⟨rest, hrest, h⟩ := exists_of_bind_eq_ok h
    rw [WholeMembers]
    exact ⟨⟨fault_of_value hk, whole_of_toValue d depth v hv⟩,
      whole_of_toMembers ms depth rest hrest⟩

end

instance (d : Draft) : Decidable d.Whole := decidable_of_iff _ d.fault?_eq_none_iff

instance (x : List Char) (d : Draft) : Decidable (Spells x d) :=
  inferInstanceAs (Decidable (d.Whole ∧ tokens x = d.tokenList))

/-! ## What a draft shows -/

/-- Members with the keys that were read. -/
def keyed (ms : List (StringText × Draft)) : List (Except Fault String × Draft) :=
  ms.map fun m => (m.1.value, m.2)

lemma view_object (ms : List (StringText × Draft)) (ending : Ending) :
    Source.view (Draft.object ms ending) = .ok (.object (keyed ms) ending) := rfl

lemma eq_of_view_array {d : Draft} {items : List Draft} {ending : Ending}
    (h : Source.view d = .ok (.array items ending)) : d = .array items ending := by
  cases d with
  | array => cases h; rfl
  | number t => obtain ⟨n, -, hn⟩ := exists_of_map_eq_ok h; cases hn
  | string t => obtain ⟨s, -, hs⟩ := exists_of_map_eq_ok h; cases hs
  | _ => cases h

lemma eq_of_view_object {d : Draft} {members : List (Except Fault String × Draft)}
    {ending : Ending} (h : Source.view d = .ok (.object members ending)) :
    ∃ ms, d = .object ms ending ∧ members = keyed ms := by
  cases d with
  | object ms => cases h; exact ⟨ms, rfl, rfl⟩
  | number t => obtain ⟨n, -, hn⟩ := exists_of_map_eq_ok h; cases hn
  | string t => obtain ⟨s, -, hs⟩ := exists_of_map_eq_ok h; cases hs
  | _ => cases h

/-- Anything but an array or an object is read as a whole. -/
lemma whole_of_view {d : Draft} {v : View Draft} (h : Source.view d = .ok v)
    (harray : ∀ items ending, v ≠ .array items ending)
    (hobject : ∀ members ending, v ≠ .object members ending) : d.Whole := by
  cases d with
  | string t =>
    obtain ⟨s, hs, -⟩ := exists_of_map_eq_ok h
    exact (whole_string t).2 (fault_of_value hs)
  | array items ending => exact absurd (Except.ok.inj h).symm (harray items ending)
  | object ms ending => exact absurd (Except.ok.inj h).symm (hobject _ ending)
  | broken fault => cases h
  | _ => trivial

end Draft

/-! ## Strict decoders -/

/-- Only what is whole is decoded. -/
def Strict (decode : Draft → Decoded α) : Prop := ∀ d a, decode d = .ok a → d.Whole

lemma strict_decodeString : Strict decodeString := by
  intro d s h
  obtain ⟨v, hv, h⟩ := exists_of_bind_eq_ok h
  split at h
  · exact Draft.whole_of_view (ofFault_eq_ok.1 hv) (by simp) (by simp)
  · cases h

lemma strict_decodeFloat : Strict decodeFloat := by
  intro d x h
  obtain ⟨v, hv, h⟩ := exists_of_bind_eq_ok h
  split at h
  · exact Draft.whole_of_view (ofFault_eq_ok.1 hv) (by simp) (by simp)
  · cases h

lemma strict_decodeOption {decode : Draft → Decoded α} (hdecode : Strict decode) :
    Strict (decodeOption decode) := by
  intro d o h
  rw [decodeOption] at h
  split at h
  next hnull => exact Draft.whole_of_view hnull (by simp) (by simp)
  next =>
    obtain ⟨a, ha, -⟩ := exists_of_map_eq_ok h
    exact hdecode d a ha

lemma strict_decodeItems {decode : Draft → Decoded α} (hdecode : Strict decode) {ds : List Draft}
    {as : List α} (h : decodeItems decode ds = .ok as) : ∀ d ∈ ds, d.Whole := by
  induction ds generalizing as with
  | nil => exact nofun
  | cons d ds ih =>
    obtain ⟨a, ha, h⟩ := exists_of_bind_eq_ok h
    obtain ⟨rest, hrest, h⟩ := exists_of_bind_eq_ok h
    exact List.forall_mem_cons.2 ⟨hdecode d a ha, ih hrest⟩

lemma strict_decodeList {decode : Draft → Decoded α} (hdecode : Strict decode) :
    Strict (decodeList decode) := by
  intro d as h
  obtain ⟨v, hv, h⟩ := exists_of_bind_eq_ok h
  split at h
  · obtain ⟨list, hlist, h⟩ := exists_of_bind_eq_ok h
    obtain ⟨_, hcheck, h⟩ := exists_of_bind_eq_ok h
    obtain rfl := Draft.eq_of_view_array (ofFault_eq_ok.1 hv)
    exact (Draft.whole_array _ _).2
      ⟨strict_decodeItems hdecode hlist, Ending.check_eq_ok.1 (ofFault_eq_ok.1 hcheck)⟩
  · cases h

/-! ## Records from objects -/

lemma whole_of_setFields {π : Type} {fields : List (Field Draft π)}
    (hfields : ∀ f ∈ fields, Strict f.decode) {p q : π} {key : String} {d : Draft}
    (h : setFields fields p key d = .ok q) : d.Whole := by
  cases hfind : fields.find? (·.name == key) with
  | none => exact (Draft.fault?_eq_none_iff d).1 ((setFields_undeclared hfind).1 h).1
  | some f =>
    obtain ⟨-, a, ha, -⟩ := (setFields_declared hfind).1 h
    exact hfields f (List.mem_of_find?_eq_some hfind) d a ha

lemma whole_of_foldMembers {set : ρ → String → Draft → Decoded ρ}
    (hset : ∀ r key d r', set r key d = .ok r' → d.Whole) {ms : List (StringText × Draft)}
    {ending : Ending} {r r' : ρ} (h : foldMembers set ending r (Draft.keyed ms) = .ok r') :
    (Draft.object ms ending).Whole := by
  rw [Draft.whole_object]
  induction ms generalizing r with
  | nil =>
    obtain ⟨_, hcheck, -⟩ := exists_of_bind_eq_ok h
    exact ⟨nofun, Ending.check_eq_ok.1 (ofFault_eq_ok.1 hcheck)⟩
  | cons m ms ih =>
    obtain ⟨key, r₁, hkey, hr₁, h⟩ := foldMembers_cons_eq_ok.1 h
    obtain ⟨hms, hending⟩ := ih h
    exact ⟨List.forall_mem_cons.2 ⟨⟨fault_of_value hkey, hset r key m.2 r₁ hr₁⟩, hms⟩, hending⟩

/-! ## Records from arrays -/

/-- From an array nothing but whole items is taken, one after the other. -/
def Takes (x : StateT (Items Draft) (Except DecodeError) α) : Prop :=
  ∀ items a rest, x.run items = .ok (a, rest) → rest.ending = items.ending ∧
    ∃ taken, items.items = taken ++ rest.items ∧ ∀ d ∈ taken, d.Whole

lemma Takes.pure (a : α) : Takes (Pure.pure a) := by
  intro items b rest h
  obtain ⟨-, rfl⟩ := Prod.mk.inj (Except.ok.inj h)
  exact ⟨rfl, [], rfl, nofun⟩

lemma Takes.bind {x : StateT (Items Draft) (Except DecodeError) α}
    {f : α → StateT (Items Draft) (Except DecodeError) β} (hx : Takes x) (hf : ∀ a, Takes (f a)) :
    Takes (x >>= f) := by
  intro items b rest h
  rw [StateT.run_bind] at h
  obtain ⟨⟨a, middle⟩, ha, h⟩ := exists_of_bind_eq_ok h
  obtain ⟨hending, taken, hitems, htaken⟩ := hx items a middle ha
  obtain ⟨hending', taken', hitems', htaken'⟩ := hf a middle b rest h
  refine ⟨hending'.trans hending, taken ++ taken', ?_, List.forall_mem_append.2 ⟨htaken, htaken'⟩⟩
  rw [hitems, hitems', List.append_assoc]

lemma takes_nextField {absent : Option α} {decode : Draft → Decoded α} (hdecode : Strict decode) :
    Takes (nextField absent decode) := by
  intro items a rest h
  change nextField absent decode items = .ok (a, rest) at h
  rw [nextField.eq_def] at h
  split at h
  next s items' hitems =>
    obtain ⟨b, hb, h⟩ := exists_of_bind_eq_ok h
    obtain ⟨-, rfl⟩ := Prod.mk.inj (Except.ok.inj h)
    exact ⟨rfl, [s], hitems, List.forall_mem_singleton.2 (hdecode s b hb)⟩
  next hitems =>
    obtain ⟨_, -, h⟩ := exists_of_bind_eq_ok h
    obtain ⟨-, rfl⟩ := Prod.mk.inj (Except.ok.inj h)
    exact ⟨rfl, [], rfl, nofun⟩
  next =>
    obtain ⟨_, -, h⟩ := exists_of_bind_eq_ok h
    cases h

lemma endFields_eq_ok {length : Nat} {rest : Items Draft} {u : Unit} :
    endFields length rest = .ok u ↔ rest.items = [] ∧ rest.ending = .closed := by
  obtain ⟨record, fields, taken, items, ending⟩ := rest
  cases items with
  | cons => simp [endFields]
  | nil => cases ending <;> simp [endFields, Ending.check, Ending.fault?, Decoded.ofFault]

/-- A record is read from nothing but what is whole. -/
theorem strict_decodeRecord {shape : RecordShape Draft ρ} (A : Assembly shape)
    (hfields : ∀ f ∈ A.fields, Strict f.decode) (hitems : Takes shape.ofItems) :
    Strict (decodeRecord shape) := by
  intro d r hdecode
  obtain ⟨v, hv, h⟩ := exists_of_bind_eq_ok hdecode
  cases v with
  | object members ending =>
    obtain ⟨ms, rfl, rfl⟩ := Draft.eq_of_view_object (ofFault_eq_ok.1 hv)
    obtain ⟨p, hp, -⟩ := A.ofMembers_eq_ok.1 h
    exact whole_of_foldMembers (fun _ _ _ _ => whole_of_setFields hfields) hp
  | array items ending =>
    obtain rfl := Draft.eq_of_view_array (ofFault_eq_ok.1 hv)
    obtain ⟨⟨a, rest⟩, ha, h⟩ := exists_of_bind_eq_ok h
    obtain ⟨_, hend, -⟩ := exists_of_bind_eq_ok h
    obtain ⟨hnil, hclosed⟩ := endFields_eq_ok.1 hend
    obtain ⟨hending, taken, htaken, hwhole⟩ := hitems _ _ _ ha
    rw [hnil, List.append_nil] at htaken
    subst htaken
    exact (Draft.whole_array _ _).2 ⟨hwhole, hending.symm.trans hclosed⟩
  | _ => cases h

/-! ## Texts -/

/-- What is decoded from a text is decoded from the tree that the text spells. -/
theorem decodeText_eq_ok {decode : Draft → Decoded α} (hdecode : Strict decode) {text : String}
    {a : α} : decodeText decode text = .ok a ↔ ∃ d, Spells text.toList d ∧ decode d = .ok a := by
  constructor
  · intro h
    obtain ⟨b, hb, h⟩ := exists_of_bind_eq_ok h
    split at h
    · cases h
    next hmore =>
      obtain rfl := Except.ok.inj h
      exact ⟨_, spells_iff.2 ⟨hdecode _ b hb, Prod.ext rfl (Bool.eq_false_iff.2 hmore)⟩, hb⟩
  · rintro ⟨d, hspells, hd⟩
    rw [decodeText, (spells_iff.1 hspells).2]
    dsimp only
    rw [hd]
    rfl

end AgentScript.Json
