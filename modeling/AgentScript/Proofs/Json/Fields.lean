import AgentScript.Proofs.Json.Records
import Mathlib.Data.List.Perm.Basic
import Mathlib.Data.List.Pairwise

/-!
# Fields of a record

A record that is read from an object is put together from its *fields*.  A member whose key is the
name of a field fills the field, any other member is passed over (`setFields`).  The fields of a
record are independent: what one of them is filled with changes no other.

So two members may change places (`setFields_comm`), and with them all members of an object
(`foldMembers_perm`).  A member that is passed over may stand anywhere or nowhere
(`foldMembers_append`), and one whose value is exchanged does no harm if the record stays related to
what it was (`foldMembers_forall₂`).  An `Assembly` says of which fields a record is made.
-/

namespace AgentScript.Json

variable {σ ρ π α : Type}

/-! ## Filling and passing over -/

lemma fill_eq_ok {name : String} {field o : Option α} {decode : σ → Decoded α} {s : σ} :
    fill name field decode s = .ok o ↔ field = none ∧ ∃ a, decode s = .ok a ∧ o = some a := by
  cases field with
  | some b => simp [fill, refuse]
  | none =>
    rw [fill_none]
    cases hdecode : decode s with
    | error e => simp
    | ok a => simp [eq_comm]

lemma passOver_eq_ok [Source σ] {r r' : ρ} {s : σ} :
    passOver r s = .ok r' ↔ Source.skip s = none ∧ r' = r := by
  rw [passOver]
  cases hskip : Source.skip s with
  | none => simp [eq_comm]
  | some fault => simp

section Members

variable {set : ρ → String → σ → Decoded ρ} {ending : Ending} {r r' : ρ}
  {ms ms' added : List (Except Fault String × σ)}

lemma foldMembers_cons_eq_ok {m : Except Fault String × σ} :
    foldMembers set ending r (m :: ms) = .ok r' ↔
      ∃ key r₁, m.1 = .ok key ∧ set r key m.2 = .ok r₁ ∧
        foldMembers set ending r₁ ms = .ok r' := by
  constructor
  · intro h
    obtain ⟨key, hkey, h⟩ := exists_of_bind_eq_ok h
    obtain ⟨r₁, hr₁, h⟩ := exists_of_bind_eq_ok h
    refine ⟨key, r₁, ?_, hr₁, h⟩
    cases hm : m.1 with
    | error fault => rw [hm] at hkey; cases hkey
    | ok k => rw [hm] at hkey; cases hkey; rfl
  · rintro ⟨key, r₁, hkey, hr₁, h⟩
    obtain ⟨k, s⟩ := m
    obtain rfl : k = .ok key := hkey
    change (set r key s >>= fun r => foldMembers set ending r ms) = .ok r'
    rw [hr₁, ok_bind, h]

/-- What every member keeps is kept by all of them. -/
lemma foldMembers_induction {P : ρ → Prop}
    (hset : ∀ r key s r', P r → set r key s = .ok r' → P r') (hr : P r)
    (h : foldMembers set ending r ms = .ok r') : P r' := by
  induction ms generalizing r with
  | nil =>
    obtain ⟨-, -, h⟩ := exists_of_bind_eq_ok h
    obtain rfl := Except.ok.inj h
    exact hr
  | cons m ms ih =>
    obtain ⟨key, r₁, -, hr₁, h⟩ := foldMembers_cons_eq_ok.1 h
    exact ih (hset r key m.2 r₁ hr hr₁) h

/-- Two members may change places if what they do may. -/
theorem foldMembers_perm
    (hcomm : ∀ r key s r₁ key' s' r₂, set r key s = .ok r₁ → set r₁ key' s' = .ok r₂ →
      ∃ q, set r key' s' = .ok q ∧ set q key s = .ok r₂)
    (hperm : ms.Perm ms') (h : foldMembers set ending r ms = .ok r') :
    foldMembers set ending r ms' = .ok r' := by
  induction hperm generalizing r with
  | nil => exact h
  | cons m _ ih =>
    obtain ⟨key, r₁, hkey, hr₁, h⟩ := foldMembers_cons_eq_ok.1 h
    exact foldMembers_cons_eq_ok.2 ⟨key, r₁, hkey, hr₁, ih h⟩
  | swap m n ms =>
    obtain ⟨key, r₁, hkey, hr₁, h⟩ := foldMembers_cons_eq_ok.1 h
    obtain ⟨key', r₂, hkey', hr₂, h⟩ := foldMembers_cons_eq_ok.1 h
    obtain ⟨q, hq, hr₂⟩ := hcomm _ _ _ _ _ _ _ hr₁ hr₂
    exact foldMembers_cons_eq_ok.2
      ⟨key', q, hkey', hq, foldMembers_cons_eq_ok.2 ⟨key, r₂, hkey, hr₂, h⟩⟩
  | trans _ _ ih₁ ih₂ => exact ih₂ (ih₁ h)

/-- Members that do nothing. -/
theorem foldMembers_append
    (hadded : ∀ m ∈ added, ∃ key, m.1 = .ok key ∧ ∀ r, set r key m.2 = .ok r) :
    foldMembers set ending r (ms ++ added) = .ok r' ↔ foldMembers set ending r ms = .ok r' := by
  induction ms generalizing r with
  | nil =>
    rw [List.nil_append]
    induction added with
    | nil => rfl
    | cons m added ih =>
      rw [List.forall_mem_cons] at hadded
      obtain ⟨⟨key, hkey, hset⟩, hadded⟩ := hadded
      rw [← ih hadded, foldMembers_cons_eq_ok]
      constructor
      · rintro ⟨key', r₁, hkey', hr₁, h⟩
        obtain rfl := Except.ok.inj (hkey.symm.trans hkey')
        obtain rfl := Except.ok.inj ((hset r).symm.trans hr₁)
        exact h
      · exact fun h => ⟨key, r, hkey, hset r, h⟩
  | cons m ms ih =>
    rw [List.cons_append, foldMembers_cons_eq_ok, foldMembers_cons_eq_ok]
    simp only [ih]

/-- Members that are exchanged one by one, so that the records stay related. -/
theorem foldMembers_forall₂ {R : ρ → ρ → Prop} {q : ρ}
    (hms : List.Forall₂ (fun m n => n.1 = m.1 ∧ ∀ key r q r₁, m.1 = .ok key → R r q →
      set r key m.2 = .ok r₁ → ∃ q₁, set q key n.2 = .ok q₁ ∧ R r₁ q₁) ms ms')
    (hrq : R r q) (h : foldMembers set ending r ms = .ok r') :
    ∃ q', foldMembers set ending q ms' = .ok q' ∧ R r' q' := by
  induction hms generalizing r q with
  | nil =>
    obtain ⟨_, hcheck, h⟩ := exists_of_bind_eq_ok h
    obtain rfl := Except.ok.inj h
    have hnil : foldMembers set ending q [] = .ok q := by
      rw [foldMembers, hcheck]
      rfl
    exact ⟨q, hnil, hrq⟩
  | cons hm _ ih =>
    obtain ⟨key, r₁, hkey, hr₁, h⟩ := foldMembers_cons_eq_ok.1 h
    obtain ⟨q₁, hq₁, hrq⟩ := hm.2 key r q r₁ hkey hrq hr₁
    obtain ⟨q', hq', hrq⟩ := ih hrq h
    exact ⟨q', foldMembers_cons_eq_ok.2 ⟨key, q₁, hm.1.trans hkey, hq₁, hq'⟩, hrq⟩

end Members

/-! ## Fields -/

/-- A field of a record of which some fields are known. -/
structure Field (σ π : Type) where
  name : String
  {α : Type}
  get : π → Option α
  put : π → Option α → π
  decode : σ → Decoded α
  get_put : ∀ r o, get (put r o) = o := by intros; rfl

/-- What one of the fields is filled with does not show in the other. -/
@[mk_iff]
structure Field.Independent (f g : Field σ π) : Prop where
  get_put : ∀ r o, f.get (g.put r o) = f.get r
  put_get : ∀ r o, g.get (f.put r o) = g.get r
  comm : ∀ r a b, f.put (g.put r b) a = g.put (f.put r a) b

instance : Std.Symm (@Field.Independent σ π) where
  symm _ _ h := ⟨h.put_get, h.get_put, fun r a b => (h.comm r b a).symm⟩

/-- Puts a member into the field that its key names, and passes over one that names no field. -/
def setFields [Source σ] (fields : List (Field σ π)) (r : π) (key : String) (s : σ) : Decoded π :=
  match fields.find? (·.name == key) with
  | some f => do return f.put r (← fill key (f.get r) f.decode s)
  | none => passOver r s

section Setting

variable [Source σ] {fields : List (Field σ π)} {f : Field σ π} {r r₁ r₂ : π} {key key' : String}
  {s s' : σ}

lemma setFields_declared (hfind : fields.find? (·.name == key) = some f) :
    setFields fields r key s = .ok r₁ ↔
      f.get r = none ∧ ∃ a, f.decode s = .ok a ∧ r₁ = f.put r (some a) := by
  rw [setFields, hfind]
  constructor
  · intro h
    obtain ⟨o, ho, h⟩ := exists_of_bind_eq_ok h
    obtain ⟨hnone, a, ha, rfl⟩ := fill_eq_ok.1 ho
    exact ⟨hnone, a, ha, (Except.ok.inj h).symm⟩
  · rintro ⟨hnone, a, ha, rfl⟩
    have hfill : fill key (f.get r) f.decode s = .ok (some a) := fill_eq_ok.2 ⟨hnone, a, ha, rfl⟩
    dsimp only
    rw [hfill]
    rfl

/-- A key that names no field. -/
lemma setFields_eq_passOver (hkey : ∀ f ∈ fields, key ≠ f.name) :
    setFields fields r key s = passOver r s := by
  have hfind : fields.find? (·.name == key) = none :=
    List.find?_eq_none.2 fun f hf hname => hkey f hf (beq_iff_eq.1 hname).symm
  rw [setFields, hfind]

lemma setFields_undeclared (hfind : fields.find? (·.name == key) = none) :
    setFields fields r key s = .ok r₁ ↔ Source.skip s = none ∧ r₁ = r := by
  rw [setFields, hfind]
  exact passOver_eq_ok

/-- Members change places.  Two for one field never come to this, since the second is refused. -/
theorem setFields_comm (hfields : fields.Pairwise Field.Independent)
    (hr₁ : setFields fields r key s = .ok r₁) (hr₂ : setFields fields r₁ key' s' = .ok r₂) :
    ∃ q, setFields fields r key' s' = .ok q ∧ setFields fields q key s = .ok r₂ := by
  cases hf : fields.find? (·.name == key) with
  | none =>
    obtain ⟨hskip, rfl⟩ := (setFields_undeclared hf).1 hr₁
    exact ⟨r₂, hr₂, (setFields_undeclared hf).2 ⟨hskip, rfl⟩⟩
  | some f =>
    cases hg : fields.find? (·.name == key') with
    | none =>
      obtain ⟨hskip, rfl⟩ := (setFields_undeclared hg).1 hr₂
      exact ⟨r, (setFields_undeclared hg).2 ⟨hskip, rfl⟩, hr₁⟩
    | some g =>
      obtain ⟨hfr, a, ha, rfl⟩ := (setFields_declared hf).1 hr₁
      obtain ⟨hgr, b, hb, rfl⟩ := (setFields_declared hg).1 hr₂
      -- one field is not filled twice
      have hne : f ≠ g := by
        rintro rfl
        rw [f.get_put] at hgr
        cases hgr
      have hfg := hfields.forall (List.mem_of_find?_eq_some hf) (List.mem_of_find?_eq_some hg) hne
      rw [hfg.put_get] at hgr
      refine ⟨g.put r (some b), (setFields_declared hg).2 ⟨hgr, b, hb, rfl⟩,
        (setFields_declared hf).2 ⟨?_, a, ha, (hfg.comm r (some a) (some b)).symm⟩⟩
      rw [hfg.get_put, hfr]

/-- A field that is filled stays as it is. -/
lemma get_of_setFields (hfields : fields.Pairwise Field.Independent) (hf : f ∈ fields) {a : f.α}
    (hr : f.get r = some a) (h : setFields fields r key s = .ok r₁) : f.get r₁ = some a := by
  cases hg : fields.find? (·.name == key) with
  | none =>
    obtain ⟨-, rfl⟩ := (setFields_undeclared hg).1 h
    exact hr
  | some g =>
    obtain ⟨hgr, b, -, rfl⟩ := (setFields_declared hg).1 h
    have hne : f ≠ g := by
      rintro rfl
      rw [hr] at hgr
      cases hgr
    rw [(hfields.forall hf (List.mem_of_find?_eq_some hg) hne).get_put, hr]

/-- A field is filled with what the member of its name is decoded to. -/
theorem get_of_foldMembers (hfields : fields.Pairwise Field.Independent)
    (hfind : fields.find? (·.name == key) = some f) {a : f.α} (ha : f.decode s = .ok a)
    {ending : Ending} {ms : List (Except Fault String × σ)} (hmem : (.ok key, s) ∈ ms)
    (h : foldMembers (setFields fields) ending r ms = .ok r₁) : f.get r₁ = some a := by
  induction ms generalizing r with
  | nil => cases hmem
  | cons m ms ih =>
    obtain ⟨key', r₂, hkey, hr₂, h⟩ := foldMembers_cons_eq_ok.1 h
    rcases List.mem_cons.1 hmem with rfl | hmem
    · obtain rfl := Except.ok.inj hkey
      obtain ⟨-, b, hb, rfl⟩ := (setFields_declared hfind).1 hr₂
      obtain rfl := Except.ok.inj (ha.symm.trans hb)
      exact foldMembers_induction (P := fun r => f.get r = some a)
        (fun _ _ _ _ => get_of_setFields hfields (List.mem_of_find?_eq_some hfind))
        (f.get_put r (some a)) h
    · exact ih hmem h

end Setting

/-! ## Records of fields -/

/-- The fields that a record is made of when it is read from an object. -/
structure Assembly [Source σ] (shape : RecordShape σ ρ) where
  {π : Type}
  fields : List (Field σ π)
  independent : fields.Pairwise Field.Independent
  empty : π
  finish : π → Decoded ρ
  ofMembers_eq : ∀ ms ending, shape.ofMembers ms ending =
    foldMembers (setFields fields) ending empty ms >>= finish

namespace Assembly

variable [Source σ] {shape : RecordShape σ ρ} (A : Assembly shape) {ending : Ending} {r : ρ}
  {ms ms' added : List (Except Fault String × σ)}

/-- The keys that the record declares. -/
def keys : List String := A.fields.map (·.name)

lemma setFields_of_not_mem {key : String} (hkey : key ∉ A.keys) (p : A.π) (s : σ) :
    setFields A.fields p key s = passOver p s :=
  setFields_eq_passOver fun _ hf hname => hkey (List.mem_map.2 ⟨_, hf, hname.symm⟩)

lemma ofMembers_eq_ok : shape.ofMembers ms ending = .ok r ↔
    ∃ p, foldMembers (setFields A.fields) ending A.empty ms = .ok p ∧ A.finish p = .ok r := by
  rw [A.ofMembers_eq]
  constructor
  · exact exists_of_bind_eq_ok
  · rintro ⟨p, hp, hr⟩
    rw [hp, ok_bind, hr]

include A in
/-- The order of the members does not matter. -/
theorem ofMembers_perm (hperm : ms.Perm ms') (h : shape.ofMembers ms ending = .ok r) :
    shape.ofMembers ms' ending = .ok r := by
  obtain ⟨p, hp, hr⟩ := A.ofMembers_eq_ok.1 h
  refine A.ofMembers_eq_ok.2 ⟨p, foldMembers_perm ?_ hperm hp, hr⟩
  intro q key s q₁ key' s' q₂ hq₁ hq₂
  exact setFields_comm A.independent hq₁ hq₂

/-- Members that the record does not declare do nothing if they can be passed over. -/
theorem ofMembers_append
    (hadded : ∀ m ∈ added, ∃ key, m.1 = .ok key ∧ key ∉ A.keys ∧ Source.skip m.2 = none) :
    shape.ofMembers (ms ++ added) ending = .ok r ↔ shape.ofMembers ms ending = .ok r := by
  have hpassed : ∀ m ∈ added, ∃ key, m.1 = .ok key ∧
      ∀ p, setFields A.fields p key m.2 = .ok p := by
    intro m hm
    obtain ⟨key, hkey, hnot, hskip⟩ := hadded m hm
    refine ⟨key, hkey, fun p => ?_⟩
    rw [A.setFields_of_not_mem hnot]
    exact passOver_eq_ok.2 ⟨hskip, rfl⟩
  simp only [A.ofMembers_eq_ok, foldMembers_append hpassed]

end Assembly

end AgentScript.Json
