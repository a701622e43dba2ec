import AgentScript.Proofs.Json.Documents

/-!
# Records come back

What a decoder makes of something that was written is put together here from what it makes of the
parts.  The members of an object are gone through one by one, so each step is one equation
(`foldMembers_member`): a member that is there fills its field, and a member that was left out
leaves the field as it was (`foldMembers_optional`).  Plain values have their members in the order of
the keys, whatever the order in which they were written (`arrange_eq`).
-/

namespace AgentScript.Json

/-! ## Results -/

@[simp]
lemma ok_bind {ε α β : Type} (a : α) (f : α → Except ε β) : (Except.ok a >>= f) = f a := rfl

@[simp]
lemma map_ok {ε α β : Type} (f : α → β) (a : α) : (f <$> Except.ok a : Except ε β) = .ok (f a) := rfl

@[simp]
lemma pure_eq_ok {ε α : Type} (a : α) : (pure a : Except ε α) = .ok a := rfl

/-! ## Single values -/

namespace Value

lemma view_draft_null : Source.view Value.null.draft = .ok .null := by
  rw [draft]
  rfl

lemma view_draft_bool (b : Bool) : Source.view (Value.bool b).draft = .ok (.bool b) := by
  rw [draft]
  rfl

lemma view_draft_number {n m : Number} (h : (printedNumber n).value = .ok m) :
    Source.view (Value.number n).draft = .ok (.number m) := by
  rw [draft]
  exact congrArg (View.number <$> ·) h

lemma view_draft_string (s : String) : Source.view (Value.string s).draft = .ok (.string s) := by
  rw [draft]
  exact congrArg (View.string <$> ·) (value_printedText s)

lemma view_draft_array (vs : List Value) :
    Source.view (Value.array vs).draft = .ok (.array (vs.map draft) .closed) := by
  rw [draft, itemDrafts_eq]
  rfl

end Value

variable {σ ρ α β : Type}

/-- Members as a reader is shown them. -/
def shown (source : Value → σ) (ms : List (String × Value)) : List (Except Fault String × σ) :=
  ms.map fun m => (.ok m.1, source m.2)

lemma Value.view_draft_object (ms : List (String × Value)) :
    Source.view (Value.object ms).draft = .ok (.object (shown Value.draft ms) .closed) := by
  have hkeys : ms.map ((fun m : StringText × Draft => (m.1.value, m.2)) ∘
      fun m => (printedText m.1, m.2.draft)) = shown Value.draft ms :=
    List.map_congr_left fun m _ => by rw [Function.comp_apply, value_printedText]
  rw [Value.draft, Value.memberDrafts_eq, ← hkeys, ← List.map_map]
  rfl

lemma look_eq [Source σ] {s : σ} {v : View σ} (h : Source.view s = .ok v) : look s = .ok v := by
  rw [look, h]
  rfl

@[simp]
lemma decodeString_draft (s : String) : decodeString (Value.string s).draft = .ok s := by
  rw [decodeString, look_eq (Value.view_draft_string s)]
  rfl

@[simp]
lemma decodeBool_draft (b : Bool) : decodeBool (Value.bool b).draft = .ok b := by
  rw [decodeBool, look_eq (Value.view_draft_bool b)]
  rfl

lemma decodeNat_draft {n : Nat} (h : n < 2 ^ 64) :
    decodeNat (Value.number (.integer n)).draft = .ok n := by
  have hnumber : (Value.printedNumber (.integer n)).value = .ok (.integer n) := by
    rw [Value.printedNumber, numberText?_natural, Option.getD_some, value_natural h]
  rw [decodeNat, look_eq (Value.view_draft_number hnumber)]
  rfl

/-- A double is decoded as the double that is read where it was written. -/
lemma decodeFloat_draft {x y : Float} (h : readBack x = some y) :
    decodeFloat (Value.number (.real x)).draft = .ok y := by
  obtain ⟨t, ht, h⟩ := Option.bind_eq_some_iff.1 h
  obtain ⟨n, hn, h⟩ := Option.bind_eq_some_iff.1 h
  obtain rfl := Option.some.inj h
  have hnumber : (Value.printedNumber (.real x)).value = .ok n := by
    rw [Value.printedNumber, ht, Option.getD_some]
    cases hvalue : t.value with
    | error e => rw [hvalue] at hn; cases hn
    | ok m => rw [hvalue] at hn; cases hn; rfl
  rw [decodeFloat, look_eq (Value.view_draft_number hnumber)]
  rfl

lemma readable_of_readBack {x : Float} (h : (readBack x).isSome) :
    (Value.number (.real x)).Readable := by
  obtain ⟨y, hy⟩ := Option.isSome_iff_exists.1 h
  obtain ⟨t, ht, -⟩ := Option.bind_eq_some_iff.1 hy
  rw [Value.Readable, ht]
  rfl

lemma readable_natural (n : Nat) : (Value.number (.integer n)).Readable := by
  rw [Value.Readable, numberText?_natural]
  rfl

lemma decodeOption_null [Source σ] {decode : σ → Decoded α} {s : σ} (h : Source.view s = .ok .null) :
    decodeOption decode s = .ok none := by
  rw [decodeOption, h]

lemma decodeOption_some [Source σ] {decode : σ → Decoded α} {s : σ} {a : α}
    (h : Source.view s ≠ .ok .null) (hdecode : decode s = .ok a) :
    decodeOption decode s = .ok (some a) := by
  rw [decodeOption]
  split
  next hnull => exact absurd hnull h
  next => rw [hdecode]; rfl

/-- A list comes back if its items do. -/
lemma decodeItems_map {decode : σ → Decoded β} {source : Value → σ} {encode : α → Value}
    {f : α → β} {as : List α} (h : ∀ a ∈ as, decode (source (encode a)) = .ok (f a)) :
    decodeItems decode ((as.map encode).map source) = .ok (as.map f) := by
  induction as with
  | nil => rfl
  | cons a as ih =>
    rw [List.forall_mem_cons] at h
    rw [List.map_cons, List.map_cons, List.map_cons, decodeItems, h.1, ih h.2]
    rfl

lemma decodeList_draft {decode : Draft → Decoded β} {encode : α → Value} {f : α → β}
    {as : List α} (h : ∀ a ∈ as, decode (encode a).draft = .ok (f a)) :
    decodeList decode (Value.array (as.map encode)).draft = .ok (as.map f) := by
  rw [decodeList, look_eq (Value.view_draft_array _), ok_bind]
  dsimp only
  rw [decodeItems_map h]
  rfl

/-! ## Members -/

/-- A field that was filled only if there was something to fill it with. -/
@[simp]
lemma getD_map_some (o : Option α) : (o.map some).getD none = o := by
  cases o <;> rfl

/-- The members that have a value. -/
def given (ms : List (String × Option Value)) : List (String × Value) :=
  ms.filterMap fun m => m.2.map (m.1, ·)

lemma forall_mem_given {P : Value → Prop} {ms : List (String × Option Value)}
    (h : ∀ m ∈ ms, ∀ v, m.2 = some v → P v) : ∀ m ∈ given ms, P m.2 := by
  intro m hm
  obtain ⟨n, hn, hm⟩ := List.mem_filterMap.1 hm
  obtain ⟨v, hv, rfl⟩ := Option.map_eq_some_iff.1 hm
  exact h n hn v hv

section Members

variable {set : ρ → String → σ → Decoded ρ} {source : Value → σ} {r : ρ} {key : String}

@[simp]
lemma foldMembers_nil : foldMembers set .closed r (shown source []) = .ok r := rfl

@[simp]
lemma foldMembers_given_nil : foldMembers set .closed r (shown source (given [])) = .ok r := rfl

/-- One member. -/
@[simp]
lemma foldMembers_member (v : Value) (ms : List (String × Value)) :
    foldMembers set .closed r (shown source ((key, v) :: ms)) =
      (set r key (source v) >>= fun r => foldMembers set .closed r (shown source ms)) := rfl

@[simp]
lemma foldMembers_given (v : Value) (ms : List (String × Option Value)) :
    foldMembers set .closed r (shown source (given ((key, some v) :: ms))) =
      (set r key (source v) >>= fun r => foldMembers set .closed r (shown source (given ms))) := rfl

/-- A member that is only there if it has a value. -/
lemma foldMembers_optional (o : Option α) (encode : α → Value) (put : Option α → ρ)
    (h : ∀ a, set (put none) key (source (encode a)) = .ok (put (some a)))
    (ms : List (String × Option Value)) :
    foldMembers set .closed (put none) (shown source (given ((key, o.map encode) :: ms))) =
      foldMembers set .closed (put o) (shown source (given ms)) := by
  cases o with
  | none => rfl
  | some a => rw [Option.map_some, foldMembers_given, h, ok_bind]

end Members

@[simp]
lemma fill_none (key : String) (decode : σ → Decoded α) (s : σ) :
    fill key none decode s = some <$> decode s := rfl

@[simp]
lemma require_some (key : String) (a : α) : require key (some a) = .ok a := rfl

lemma decodeRecord_object [Source σ] {shape : RecordShape σ ρ} {s : σ}
    {members : List (Except Fault String × σ)} {ending : Ending}
    (h : Source.view s = .ok (.object members ending)) :
    decodeRecord shape s = shape.ofMembers members ending := by
  rw [decodeRecord, look_eq h]
  rfl

lemma decodeRecord_draft (shape : RecordShape Draft ρ) (ms : List (String × Value)) :
    decodeRecord shape (Value.object ms).draft = shape.ofMembers (shown Value.draft ms) .closed :=
  decodeRecord_object (Value.view_draft_object ms)

lemma decodeRecord_value (shape : RecordShape Value ρ) (ms : List (String × Value)) :
    decodeRecord shape (Value.object ms) = shape.ofMembers (shown id ms) .closed :=
  decodeRecord_object rfl

/-! ## Members in the order of their keys -/

/-- Members in the order of their keys, each key once. -/
def Ordered (ms : List (String × Value)) : Prop := ms.Pairwise (·.1 < ·.1)

lemma eq_of_not_lt {a b : String} (hab : ¬a < b) (hba : ¬b < a) : a = b :=
  String.le_antisymm (String.not_lt.1 hba) (String.not_lt.1 hab)

variable {p : String → Bool} {ms : List (String × Value)} {key : String} {v : Value}

lemma mem_putMember {m : String × Value} (h : m ∈ putMember key v ms) : m = (key, v) ∨ m ∈ ms := by
  induction ms with
  | nil => exact .inl (List.mem_singleton.1 h)
  | cons n ms ih =>
    rw [putMember] at h
    split_ifs at h
    · exact List.mem_cons.1 h
    · exact (List.mem_cons.1 h).imp_right (List.mem_cons_of_mem n)
    · rcases List.mem_cons.1 h with rfl | h
      · exact .inr List.mem_cons_self
      · exact (ih h).imp_right (List.mem_cons_of_mem n)

lemma ordered_putMember (h : Ordered ms) : Ordered (putMember key v ms) := by
  induction ms with
  | nil => exact List.pairwise_singleton _ _
  | cons m ms ih =>
    have hm := (List.pairwise_cons.1 h).1
    rw [putMember]
    split_ifs with hlt heq
    · refine List.pairwise_cons.2 ⟨fun n hn => ?_, h⟩
      rcases List.mem_cons.1 hn with rfl | hn
      · exact hlt
      · exact String.lt_trans hlt (hm n hn)
    · subst heq
      exact List.pairwise_cons.2 ⟨hm, h.of_cons⟩
    · refine List.pairwise_cons.2 ⟨fun n hn => ?_, ih h.of_cons⟩
      rcases mem_putMember hn with rfl | hn
      · by_contra hnot
        exact heq (eq_of_not_lt hnot hlt)
      · exact hm n hn

/-- Members that are put in place one after the other end up in order. -/
lemma ordered_arrange (ms : List (String × Value)) : Ordered (arrange ms) :=
  List.foldlRecOn ms (fun placed m => putMember m.1 m.2 placed) .nil
    fun _ hplaced _ _ => ordered_putMember hplaced

lemma putMember_perm (hkey : ∀ m ∈ ms, m.1 ≠ key) : (putMember key v ms).Perm ((key, v) :: ms) := by
  induction ms with
  | nil => rfl
  | cons m ms ih =>
    rw [List.forall_mem_cons] at hkey
    rw [putMember]
    split_ifs with hlt heq
    · rfl
    · exact absurd heq hkey.1
    · exact ((ih hkey.2).cons m).trans (.swap _ _ _)

/-- A member does not show among the keys that it does not have. -/
lemma putMember_filter_of_not (hkey : ¬ p key = true) :
    (putMember key v ms).filter (p ·.1) = ms.filter (p ·.1) := by
  induction ms with
  | nil => simp [putMember, hkey]
  | cons m ms ih =>
    rw [putMember]
    split_ifs with hlt heq
    · rw [List.filter_cons, if_neg hkey]
    · subst heq
      rw [List.filter_cons, if_neg hkey, List.filter_cons, if_neg hkey]
    · rw [List.filter_cons, List.filter_cons, ih]

lemma foldl_putMember_filter (placed ms : List (String × Value))
    (hkeys : ((placed ++ ms).filter (p ·.1)).Pairwise fun m n => m.1 ≠ n.1) :
    ((ms.foldl (fun placed m => putMember m.1 m.2 placed) placed).filter (p ·.1)).Perm
      ((placed ++ ms).filter (p ·.1)) := by
  induction ms generalizing placed with
  | nil => exact .of_eq (by rw [List.foldl_nil, List.append_nil])
  | cons m ms ih =>
    have hperm : ((putMember m.1 m.2 placed ++ ms).filter (p ·.1)).Perm
        ((placed ++ m :: ms).filter (p ·.1)) := by
      rw [List.filter_append, List.filter_append]
      by_cases hkey : p m.1 = true
      · have hplaced : ∀ n ∈ placed, n.1 ≠ m.1 := by
          intro n hn heq
          rw [List.filter_append, List.pairwise_append] at hkeys
          exact hkeys.2.2 n (List.mem_filter.2 ⟨hn, by rw [heq]; exact hkey⟩) m
            (List.mem_filter.2 ⟨List.mem_cons_self, hkey⟩) heq
        have hput := (putMember_perm (v := m.2) hplaced).filter (p ·.1)
        rw [List.filter_cons_of_pos (by exact hkey)] at hput
        rw [List.filter_cons_of_pos (by exact hkey)]
        exact (hput.append_right _).trans List.perm_middle.symm
      · rw [putMember_filter_of_not hkey, List.filter_cons_of_neg (by exact hkey)]
    exact (ih _ ((hperm.pairwise_iff fun hne => Ne.symm hne).2 hkeys)).trans hperm

/-- Among the keys none of which was there twice nothing is lost. -/
theorem arrange_filter (hkeys : (ms.filter (p ·.1)).Pairwise fun m n => m.1 ≠ n.1) :
    ((arrange ms).filter (p ·.1)).Perm (ms.filter (p ·.1)) :=
  foldl_putMember_filter [] ms hkeys

/-- The order in which members were written does not show in a plain value. -/
theorem arrange_eq {ordered : List (String × Value)} (hperm : ms.Perm ordered)
    (hordered : Ordered ordered) : arrange ms = ordered := by
  have hne : ordered.Pairwise fun m n => m.1 ≠ n.1 :=
    hordered.imp fun {m n} hlt heq => by
      rw [heq] at hlt
      exact String.lt_irrefl _ hlt
  have hkeys : (ms.filter fun _ => true).Pairwise fun m n => m.1 ≠ n.1 := by
    rw [List.filter_true]
    exact (hperm.pairwise_iff fun hne => Ne.symm hne).2 hne
  have hsame : (arrange ms).Perm ms := by
    have hall := arrange_filter (p := fun _ => true) hkeys
    rwa [List.filter_true, List.filter_true] at hall
  exact (hsame.trans hperm).eq_of_pairwise
    (fun a b _ _ hab hba => absurd hba (String.lt_asymm hab)) (ordered_arrange ms) hordered

lemma ordered_given {ms : List (String × Option Value)} (h : (ms.map (·.1)).Pairwise (· < ·)) :
    Ordered (given ms) := by
  refine (List.pairwise_map.1 h).filterMap _ fun m n hlt a ha b hb => ?_
  obtain ⟨v, -, rfl⟩ := Option.map_eq_some_iff.1 ha
  obtain ⟨w, -, rfl⟩ := Option.map_eq_some_iff.1 hb
  exact hlt

lemma arrange_given {ms ordered : List (String × Option Value)} (hperm : ms.Perm ordered)
    (hordered : (ordered.map (·.1)).Pairwise (· < ·)) : arrange (given ms) = given ordered :=
  arrange_eq (hperm.filterMap _) (ordered_given hordered)

end AgentScript.Json
