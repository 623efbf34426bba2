/-!
# Maps in the order of their keys

A finite map from texts to values, kept as the list of its entries in increasing order of the
keys. The order and the absence of repeated keys are part of the type, so a map is determined by
its look-ups (`SortedMap.ext`), and its entries are what is written where a document lists them.
Each operation is given by its effect on look-up: `get?_insert`, `get?_filterKeys`, `get?_ofList`.
-/

namespace RoutineLoader

/-- A finite map with its entries in increasing order of the keys. -/
structure SortedMap (α : Type) where
  entries : List (String × α)
  sorted : entries.Pairwise fun a b => a.1 < b.1
  deriving DecidableEq

namespace SortedMap

variable {α : Type}

/-- The map without entries. -/
def empty : SortedMap α :=
  ⟨[], .nil⟩

instance : Inhabited (SortedMap α) :=
  ⟨empty⟩

/-- The value at the first entry with this key. -/
def find (key : String) : List (String × α) → Option α
  | [] => none
  | (k, value) :: rest => if k = key then some value else find key rest

/-- The value at a key. -/
def get? (m : SortedMap α) (key : String) : Option α :=
  find key m.entries

/-- Puts an entry at its place in a sorted list, in place of one with the same key. -/
def place (key : String) (value : α) : List (String × α) → List (String × α)
  | [] => [(key, value)]
  | (k, v) :: rest =>
    if key < k then (key, value) :: (k, v) :: rest
    else if key = k then (key, value) :: rest
    else (k, v) :: place key value rest

theorem mem_place {key : String} {value : α} {l : List (String × α)} {e : String × α}
    (h : e ∈ place key value l) : e = (key, value) ∨ e ∈ l := by
  induction l with
  | nil => simpa [place] using h
  | cons a rest ih =>
    obtain ⟨k, v⟩ := a
    simp only [place] at h
    split at h
    · simpa using h
    · split at h
      · rcases List.mem_cons.mp h with h | h
        · exact .inl h
        · exact .inr (List.mem_cons_of_mem _ h)
      · rcases List.mem_cons.mp h with h | h
        · exact .inr (h ▸ List.mem_cons_self)
        · exact (ih h).imp_right (List.mem_cons_of_mem _)

theorem lt_of_not_lt_of_ne {a b : String} (h : ¬ a < b) (hne : a ≠ b) : b < a :=
  Decidable.byContradiction fun h' =>
    hne (String.le_antisymm (String.not_lt.mp h') (String.not_lt.mp h))

theorem pairwise_place (key : String) (value : α) {l : List (String × α)}
    (h : l.Pairwise fun a b => a.1 < b.1) :
    (place key value l).Pairwise fun a b => a.1 < b.1 := by
  induction l with
  | nil => simp [place]
  | cons a rest ih =>
    obtain ⟨k, v⟩ := a
    obtain ⟨hk, hrest⟩ := List.pairwise_cons.mp h
    simp only [place]
    split
    · rename_i hlt
      refine List.pairwise_cons.mpr ⟨fun e he => ?_, h⟩
      rcases List.mem_cons.mp he with rfl | he
      · exact hlt
      · exact String.lt_trans hlt (hk e he)
    · rename_i hnlt
      split
      · rename_i heq
        exact List.pairwise_cons.mpr ⟨fun e he => heq ▸ hk e he, hrest⟩
      · rename_i hne
        refine List.pairwise_cons.mpr ⟨fun e he => ?_, ih hrest⟩
        rcases mem_place he with rfl | he
        · exact lt_of_not_lt_of_ne hnlt hne
        · exact hk e he

/-- The map with `value` at `key`. -/
def insert (m : SortedMap α) (key : String) (value : α) : SortedMap α :=
  ⟨place key value m.entries, pairwise_place key value m.sorted⟩

/-- The entries one after the other; of two with one key the later wins. -/
def ofList (entries : List (String × α)) : SortedMap α :=
  entries.foldl (fun m e => m.insert e.1 e.2) empty

/-- The entries whose key satisfies `keep`. -/
def filterKeys (m : SortedMap α) (keep : String → Bool) : SortedMap α :=
  ⟨m.entries.filter fun e => keep e.1, m.sorted.filter _⟩

/-- The number of entries. -/
def size (m : SortedMap α) : Nat :=
  m.entries.length

/-- The keys in increasing order. -/
def keys (m : SortedMap α) : List String :=
  m.entries.map Prod.fst

@[simp] theorem get?_empty (key : String) : (empty : SortedMap α).get? key = none :=
  rfl

theorem find_place (key : String) (value : α) (l : List (String × α)) (k : String) :
    find k (place key value l) = if key = k then some value else find k l := by
  induction l with
  | nil => simp [place, find]
  | cons a rest ih =>
    obtain ⟨k', v⟩ := a
    simp only [place]
    split
    · simp [find]
    · split
      · rename_i heq
        subst heq
        by_cases hk : key = k <;> simp [find, hk]
      · rename_i hne
        by_cases hk : k' = k
        · subst hk
          simp [find, hne]
        · simp [find, hk, ih]

@[simp] theorem get?_insert (m : SortedMap α) (key : String) (value : α) (k : String) :
    (m.insert key value).get? k = if key = k then some value else m.get? k :=
  find_place key value m.entries k

theorem find_filter (keep : String → Bool) (l : List (String × α)) (k : String) :
    find k (l.filter fun e => keep e.1) = if keep k then find k l else none := by
  induction l with
  | nil => simp [find]
  | cons a rest ih =>
    obtain ⟨k', v⟩ := a
    by_cases hk : k' = k
    · subst hk
      by_cases hkeep : keep k' <;> simp [find, hkeep, ih]
    · by_cases hkeep : keep k' <;> simp [find, hkeep, hk, ih]

@[simp] theorem get?_filterKeys (m : SortedMap α) (keep : String → Bool) (k : String) :
    (m.filterKeys keep).get? k = if keep k then m.get? k else none :=
  find_filter keep m.entries k

theorem find_eq_none {l : List (String × α)} {key : String} (h : ∀ e ∈ l, key < e.1) :
    find key l = none := by
  induction l with
  | nil => rfl
  | cons a rest ih =>
    have hne : a.1 ≠ key := fun e => String.lt_irrefl key (by simpa [e] using h a (by simp))
    simp [find, hne, ih fun e he => h e (List.mem_cons_of_mem _ he)]

theorem entries_ext {l l' : List (String × α)} (h : l.Pairwise fun a b => a.1 < b.1)
    (h' : l'.Pairwise fun a b => a.1 < b.1) (heq : ∀ k, find k l = find k l') : l = l' := by
  induction l generalizing l' with
  | nil =>
    cases l' with
    | nil => rfl
    | cons b rest' => simpa [find] using heq b.1
  | cons a rest ih =>
    cases l' with
    | nil => simpa [find] using heq a.1
    | cons b rest' =>
      obtain ⟨ha, hrest⟩ := List.pairwise_cons.mp h
      obtain ⟨hb, hrest'⟩ := List.pairwise_cons.mp h'
      have hkey : a.1 = b.1 := by
        have hab : ¬ a.1 < b.1 := fun hlt => by
          have := heq a.1
          rw [find_eq_none (l := b :: rest')] at this
          · simp [find] at this
          · intro e he
            rcases List.mem_cons.mp he with rfl | he
            · exact hlt
            · exact String.lt_trans hlt (hb e he)
        have hba : ¬ b.1 < a.1 := fun hlt => by
          have := heq b.1
          rw [find_eq_none (l := a :: rest)] at this
          · simp [find] at this
          · intro e he
            rcases List.mem_cons.mp he with rfl | he
            · exact hlt
            · exact String.lt_trans hlt (ha e he)
        exact String.le_antisymm (String.not_lt.mp hba) (String.not_lt.mp hab)
      have hvalue : a.2 = b.2 := by simpa [find, hkey] using heq a.1
      have hab : a = b := Prod.ext hkey hvalue
      subst hab
      congr 1
      refine ih hrest hrest' fun k => ?_
      by_cases hk : a.1 = k
      · subst hk
        rw [find_eq_none ha, find_eq_none hb]
      · simpa [find, hk] using heq k

theorem mem_of_find {l : List (String × α)} {key : String} {value : α}
    (h : find key l = some value) : (key, value) ∈ l := by
  induction l with
  | nil => simp [find] at h
  | cons a rest ih =>
    by_cases hk : a.1 = key
    · rw [find, if_pos hk, Option.some.injEq] at h
      rw [← hk, ← h]
      exact List.mem_cons_self
    · rw [find, if_neg hk] at h
      exact List.mem_cons_of_mem a (ih h)

theorem find_eq_none_iff {l : List (String × α)} {key : String} :
    find key l = none ↔ ∀ e ∈ l, e.1 ≠ key := by
  induction l with
  | nil => simp [find]
  | cons a rest ih => by_cases hk : a.1 = key <;> simp [find, hk, ih]

theorem find_append (l l' : List (String × α)) (key : String) :
    find key (l ++ l') = (find key l).or (find key l') := by
  induction l with
  | nil => simp [find]
  | cons a rest ih => by_cases hk : a.1 = key <;> simp [find, hk, ih]

theorem find_of_mem {l : List (String × α)} (hl : l.Pairwise fun a b => a.1 < b.1)
    {key : String} {value : α} (h : (key, value) ∈ l) : find key l = some value := by
  induction l with
  | nil => simp at h
  | cons a rest ih =>
    obtain ⟨ha, hrest⟩ := List.pairwise_cons.mp hl
    rcases List.mem_cons.mp h with rfl | h
    · simp [find]
    · have hne : a.1 ≠ key := fun e => String.lt_irrefl key (by simpa [e] using ha _ h)
      rw [find, if_neg hne]
      exact ih hrest h

theorem get?_eq_some_iff {m : SortedMap α} {key : String} {value : α} :
    m.get? key = some value ↔ (key, value) ∈ m.entries :=
  ⟨mem_of_find, find_of_mem m.sorted⟩

theorem mem_keys_iff {m : SortedMap α} {key : String} :
    key ∈ m.keys ↔ ∃ value, m.get? key = some value := by
  simp [keys, get?_eq_some_iff]

theorem get?_foldl_insert (l : List (String × α)) (m : SortedMap α) (key : String) :
    (l.foldl (fun m e => m.insert e.1 e.2) m).get? key =
      (find key l.reverse).or (m.get? key) := by
  induction l generalizing m with
  | nil => simp [find]
  | cons a rest ih =>
    rw [List.foldl_cons, ih, get?_insert, List.reverse_cons, find_append, Option.or_assoc]
    by_cases hk : a.1 = key <;> simp [find, hk]

/-- The last entry with a key is the one that counts. -/
theorem get?_ofList (l : List (String × α)) (key : String) :
    (ofList l).get? key = find key l.reverse := by
  rw [ofList, get?_foldl_insert, get?_empty, Option.or_none]

/-- An entry counts if no other one has its key. -/
theorem get?_ofList_of_forall_mem {l : List (String × α)} {key : String} {value : α}
    (hmem : (key, value) ∈ l) (hunique : ∀ v, (key, v) ∈ l → v = value) :
    (ofList l).get? key = some value := by
  rw [get?_ofList]
  cases hfind : find key l.reverse with
  | none => exact absurd rfl (find_eq_none_iff.mp hfind _ (List.mem_reverse.mpr hmem))
  | some v => rw [hunique v (List.mem_reverse.mp (mem_of_find hfind))]

theorem mem_of_get?_ofList {l : List (String × α)} {key : String} {value : α}
    (h : (ofList l).get? key = some value) : (key, value) ∈ l := by
  rw [get?_ofList] at h
  exact List.mem_reverse.mp (mem_of_find h)

/-- Maps with the same look-ups are equal. -/
theorem ext {m m' : SortedMap α} (h : ∀ k, m.get? k = m'.get? k) : m = m' := by
  cases m with
  | mk l hl =>
    cases m' with
    | mk l' hl' =>
      have : l = l' := entries_ext hl hl' h
      subst this
      rfl

theorem find_reverse {l : List (String × α)} (hl : l.Pairwise fun a b => a.1 < b.1)
    (key : String) : find key l.reverse = find key l := by
  cases h : find key l.reverse with
  | none =>
    have hnone := find_eq_none_iff.mp h
    exact (find_eq_none_iff.mpr fun e he => hnone e (List.mem_reverse.mpr he)).symm
  | some value => exact (find_of_mem hl (List.mem_reverse.mp (mem_of_find h))).symm

/-- A map is the map of its entries. -/
@[simp] theorem ofList_entries (m : SortedMap α) : ofList m.entries = m :=
  ext fun key => by rw [get?_ofList, find_reverse m.sorted, get?]

end SortedMap

end RoutineLoader
