/-! # Registries: finite maps in key order

A `Registry κ ν` files values under keys.  It is the list of its entries, and the list is kept
strictly increasing in the key, so

* **one key, one entry:** two entries never share a key (`Registry.sorted`),
* **one map, one registry:** two registries that answer every look-up alike are equal
  (`Registry.ext_get?`),
* **a listing is in key order,** whatever the order in which entries were put.

Each operation is pinned by one equation on look-ups: `get?_put`, `get?_erase`, `get?_map`. -/

namespace TrainerBooking

/-- A strict order on keys that decides between any two different keys. -/
class KeyOrder (κ : Type) where
  /-- Does the first key come strictly before the second? -/
  before : κ → κ → Bool
  /-- No key comes before itself. -/
  irrefl : ∀ a, before a a = false
  /-- Coming before is transitive. -/
  trans : ∀ {a b c}, before a b = true → before b c = true → before a c = true
  /-- Of two different keys one comes before the other. -/
  total : ∀ {a b}, a ≠ b → before a b = true ∨ before b a = true

instance : KeyOrder Int where
  before a b := decide (a < b)
  irrefl a := decide_eq_false (Int.lt_irrefl a)
  trans h₁ h₂ := decide_eq_true (Int.lt_trans (of_decide_eq_true h₁) (of_decide_eq_true h₂))
  total h := (Int.lt_or_gt_of_ne h).imp decide_eq_true decide_eq_true

/-- Texts are ordered by code point, which is also the order of their UTF-8 bytes. -/
instance : KeyOrder String where
  before a b := decide (a < b)
  irrefl a := decide_eq_false (String.lt_irrefl a)
  trans h₁ h₂ := decide_eq_true (String.lt_trans (of_decide_eq_true h₁) (of_decide_eq_true h₂))
  total {a b} h := by
    by_cases hab : a < b
    · exact Or.inl (decide_eq_true hab)
    · refine Or.inr (decide_eq_true (Decidable.byContradiction fun hba => h ?_))
      exact String.le_antisymm (String.not_lt.mp hba) (String.not_lt.mp hab)

namespace KeyOrder

variable {κ : Type} [KeyOrder κ]

theorem ne_of_before {a b : κ} (h : before a b = true) : a ≠ b := by
  rintro rfl
  simp [irrefl] at h

theorem before_of_not {a b : κ} (hne : a ≠ b) (h : before a b = false) : before b a = true :=
  (total hne).resolve_left (by simp [h])

end KeyOrder

/-- Values filed under keys, listed in strictly increasing key order. -/
structure Registry (κ ν : Type) [KeyOrder κ] where
  entries : List (κ × ν)
  /-- Every key comes strictly before the keys after it. -/
  sorted : entries.Pairwise fun a b => KeyOrder.before a.1 b.1 = true

namespace Registry

variable {κ ν μ : Type} [KeyOrder κ] [DecidableEq κ]

/-! ### Entry lists -/

/-- The value that a list of entries files under a key. -/
def find (key : κ) : List (κ × ν) → Option ν
  | [] => none
  | e :: rest => if e.1 = key then some e.2 else find key rest

/-- Files a value in an ordered list of entries, replacing the one that was there. -/
def insert (key : κ) (value : ν) : List (κ × ν) → List (κ × ν)
  | [] => [(key, value)]
  | e :: rest =>
    if e.1 = key then (key, value) :: rest
    else if KeyOrder.before key e.1 then (key, value) :: e :: rest
    else e :: insert key value rest

theorem mem_insert {key : κ} {value : ν} {l : List (κ × ν)} {e : κ × ν}
    (h : e ∈ insert key value l) : e = (key, value) ∨ e ∈ l := by
  induction l with
  | nil => simpa [insert] using h
  | cons d rest ih =>
    unfold insert at h
    split at h
    · rcases List.mem_cons.1 h with h | h
      · exact .inl h
      · exact .inr (List.mem_cons_of_mem _ h)
    · split at h
      · rcases List.mem_cons.1 h with h | h
        · exact .inl h
        · exact .inr h
      · rcases List.mem_cons.1 h with h | h
        · exact .inr (h ▸ List.mem_cons_self)
        · exact (ih h).imp_right (List.mem_cons_of_mem _)

theorem sorted_insert {key : κ} {value : ν} {l : List (κ × ν)}
    (h : l.Pairwise fun a b => KeyOrder.before a.1 b.1 = true) :
    (insert key value l).Pairwise fun a b => KeyOrder.before a.1 b.1 = true := by
  induction l with
  | nil => simp [insert]
  | cons d rest ih =>
    have hd := (List.pairwise_cons.1 h).1
    have hrest := (List.pairwise_cons.1 h).2
    unfold insert
    split
    · next heq => exact List.pairwise_cons.2 ⟨fun e he => heq ▸ hd e he, hrest⟩
    · next hne =>
      split
      · next hlt =>
        refine List.pairwise_cons.2 ⟨fun e he => ?_, h⟩
        rcases List.mem_cons.1 he with rfl | he
        · exact hlt
        · exact KeyOrder.trans hlt (hd e he)
      · next hlt =>
        refine List.pairwise_cons.2 ⟨fun e he => ?_, ih hrest⟩
        rcases mem_insert he with rfl | he
        · exact KeyOrder.before_of_not (Ne.symm hne) (by simpa using hlt)
        · exact hd e he

theorem find_eq_none {key : κ} {l : List (κ × ν)}
    (h : ∀ e ∈ l, KeyOrder.before key e.1 = true) : find key l = none := by
  induction l with
  | nil => rfl
  | cons d rest ih =>
    have hd : d.1 ≠ key := (KeyOrder.ne_of_before (h d List.mem_cons_self)).symm
    simp [find, hd, ih fun e he => h e (List.mem_cons_of_mem _ he)]

theorem find_insert (key other : κ) (value : ν) (l : List (κ × ν)) :
    find other (insert key value l) = if other = key then some value else find other l := by
  induction l with
  | nil => simp [insert, find, eq_comm]
  | cons d rest ih =>
    unfold insert
    by_cases hk : other = key
    · subst hk
      split
      · simp [find]
      · split
        · simp [find]
        · next hne _ => simp [find, hne, ih]
    · split
      · next heq =>
        have : ¬ d.1 = other := fun h => hk (h.symm.trans heq)
        simp [find, Ne.symm hk, this]
      · split
        · simp [find, Ne.symm hk]
        · simp [find, hk, ih]

omit [KeyOrder κ] in
theorem find_filter_ne (key other : κ) (l : List (κ × ν)) :
    find other (l.filter fun e => !decide (e.1 = key)) =
      if other = key then none else find other l := by
  induction l with
  | nil => simp [find]
  | cons d rest ih =>
    by_cases hd : d.1 = key
    · rw [List.filter_cons_of_neg (by simp [hd]), ih]
      by_cases ho : other = key
      · simp [ho]
      · simp [find, hd, ho, Ne.symm ho]
    · rw [List.filter_cons_of_pos (by simp [hd])]
      by_cases ho : other = key
      · subst ho; simp [hd, find, ih]
      · simp [find, ih, ho]

/-! ### Operations -/

/-- The registry without entries. -/
def empty : Registry κ ν := ⟨[], List.Pairwise.nil⟩

instance : Inhabited (Registry κ ν) := ⟨empty⟩

/-- The value filed under a key. -/
def get? (r : Registry κ ν) (key : κ) : Option ν := find key r.entries

/-- Is anything filed under the key? -/
def contains (r : Registry κ ν) (key : κ) : Bool := (r.get? key).isSome

/-- Files a value, replacing the one that was there. -/
def put (r : Registry κ ν) (key : κ) (value : ν) : Registry κ ν :=
  ⟨insert key value r.entries, sorted_insert r.sorted⟩

/-- Removes the entry of a key. -/
def erase (r : Registry κ ν) (key : κ) : Registry κ ν :=
  ⟨r.entries.filter fun e => !decide (e.1 = key), r.sorted.filter _⟩

/-- Replaces every value, keeping the keys. -/
def map (f : ν → μ) (r : Registry κ ν) : Registry κ μ :=
  ⟨r.entries.map fun e => (e.1, f e.2), by simpa [List.pairwise_map] using r.sorted⟩

/-- The keys, in increasing order. -/
def keys (r : Registry κ ν) : List κ := r.entries.map Prod.fst

/-- The values, in the order of their keys. -/
def values (r : Registry κ ν) : List ν := r.entries.map Prod.snd

/-! ### Look-ups after an operation -/

@[simp] theorem get?_empty (key : κ) : (empty : Registry κ ν).get? key = none := rfl

theorem get?_put (r : Registry κ ν) (key other : κ) (value : ν) :
    (r.put key value).get? other = if other = key then some value else r.get? other :=
  find_insert key other value r.entries

@[simp] theorem get?_put_self (r : Registry κ ν) (key : κ) (value : ν) :
    (r.put key value).get? key = some value := by simp [get?_put]

theorem get?_erase (r : Registry κ ν) (key other : κ) :
    (r.erase key).get? other = if other = key then none else r.get? other :=
  find_filter_ne key other r.entries

@[simp] theorem get?_erase_self (r : Registry κ ν) (key : κ) :
    (r.erase key).get? key = none := by simp [get?_erase]

theorem get?_map (f : ν → μ) (r : Registry κ ν) (key : κ) :
    (r.map f).get? key = (r.get? key).map f := by
  simp only [get?, map]
  generalize r.entries = l
  induction l with
  | nil => rfl
  | cons d rest ih => by_cases h : d.1 = key <;> simp [find, h, ih]

/-- An entry is listed exactly when it is what the look-up of its key finds. -/
theorem mem_entries_iff {r : Registry κ ν} {key : κ} {value : ν} :
    (key, value) ∈ r.entries ↔ r.get? key = some value := by
  rcases r with ⟨l, hl⟩
  simp only [get?]
  induction l with
  | nil => simp [find]
  | cons d rest ih =>
    have hd := (List.pairwise_cons.1 hl).1
    have hrest := (List.pairwise_cons.1 hl).2
    by_cases h : d.1 = key
    · subst h
      have hout : ∀ v, (d.1, v) ∉ rest := fun v hv =>
        absurd (hd _ hv) (by simp [KeyOrder.irrefl])
      simp only [List.mem_cons, hout, or_false, find, if_pos, Option.some.injEq]
      exact ⟨fun h => by rw [← h], fun h => by rw [← h]⟩
    · have hne : (key, value) ≠ d := fun h' => h (by rw [← h'])
      simp [List.mem_cons, hne, find, h, ih hrest]

/-- **A registry is determined by its look-ups.** -/
theorem ext_get? {r s : Registry κ ν} (h : ∀ key, r.get? key = s.get? key) : r = s := by
  rcases r with ⟨l, hl⟩
  rcases s with ⟨m, hm⟩
  simp only [get?] at h
  suffices l = m by subst this; rfl
  induction l generalizing m with
  | nil =>
    cases m with
    | nil => rfl
    | cons e rest => simpa [find] using h e.1
  | cons d rest ih =>
    cases m with
    | nil => simpa [find] using h d.1
    | cons e rest' =>
      have hd := List.pairwise_cons.1 hl
      have he := List.pairwise_cons.1 hm
      have key_eq : d.1 = e.1 := by
        refine Decidable.byContradiction fun hne => ?_
        rcases KeyOrder.total hne with hlt | hlt
        · have h1 := h d.1
          have h2 : find d.1 rest' = none :=
            find_eq_none fun x hx => KeyOrder.trans hlt (he.1 x hx)
          simp [find, Ne.symm hne, h2] at h1
        · have h1 := h e.1
          have h2 : find e.1 rest = none :=
            find_eq_none fun x hx => KeyOrder.trans hlt (hd.1 x hx)
          simp [find, hne, h2] at h1
      have value_eq : d.2 = e.2 := by simpa [find, key_eq] using h d.1
      have heads : d = e := Prod.ext key_eq value_eq
      subst heads
      have tails : rest = rest' := by
        refine ih hd.2 rest' he.2 fun key => ?_
        by_cases hk : d.1 = key
        · subst hk
          rw [find_eq_none fun x hx => hd.1 x hx, find_eq_none fun x hx => he.1 x hx]
        · simpa [find, hk] using h key
      rw [tails]

end Registry

end TrainerBooking
