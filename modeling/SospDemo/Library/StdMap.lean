import Mathlib.Tactic

/-!
# Maps in the style of `std::map`

A map is given by what `find` answers. `subscript` is `operator[]`: it inserts the default value
when the key is absent, which makes it a write.
-/

@[ext] structure StdMap (K V : Type*) where
  find : K → Option V

namespace StdMap
variable {K V : Type*}

def empty : StdMap K V := ⟨fun _ => none⟩

@[simp] theorem find_empty (k : K) : (empty : StdMap K V).find k = none := rfl

def All (m : StdMap K V) (P : K → V → Prop) : Prop := ∀ k v, m.find k = some v → P k v

theorem all_empty (P : K → V → Prop) : (empty : StdMap K V).All P := fun _ _ => nofun

def restrict (m : StdMap K V) (keep : K → Bool) : StdMap K V :=
  ⟨fun k => if keep k then m.find k else none⟩

@[simp] theorem find_restrict (m : StdMap K V) (keep : K → Bool) (k : K) :
    (m.restrict keep).find k = if keep k then m.find k else none := rfl

@[simp] theorem restrict_empty (keep : K → Bool) : (empty : StdMap K V).restrict keep = empty := by
  ext k
  simp

@[simp] theorem restrict_restrict (m : StdMap K V) (keep : K → Bool) :
    (m.restrict keep).restrict keep = m.restrict keep := by
  ext1
  funext k
  by_cases kept : keep k <;> simp [kept]

section Update
variable [DecidableEq K]

/-- Set (`some`) or clear (`none`) one entry; the other operations are this one. -/
def put (m : StdMap K V) (k : K) (v : Option V) : StdMap K V := ⟨Function.update m.find k v⟩

def assign (m : StdMap K V) (k : K) (v : V) : StdMap K V := m.put k (some v)

def erase (m : StdMap K V) (k : K) : StdMap K V := m.put k none

def emplace (m : StdMap K V) (k : K) (v : V) : StdMap K V :=
  match m.find k with
  | some _ => m
  | none => m.put k (some v)

/-- `operator[]`: the map after the lookup and the value it refers to. -/
def subscript [Inhabited V] (m : StdMap K V) (k : K) : StdMap K V × V :=
  match m.find k with
  | some v => (m, v)
  | none => (m.put k (some default), default)

@[simp] theorem put_some (m : StdMap K V) (k : K) (v : V) : m.put k (some v) = m.assign k v := rfl

@[simp] theorem put_none (m : StdMap K V) (k : K) : m.put k none = m.erase k := rfl

theorem find_put (m : StdMap K V) (k j : K) (v : Option V) :
    (m.put k v).find j = if j = k then v else m.find j := by
  simp [put, Function.update_apply]

@[simp] theorem find_put_self (m : StdMap K V) (k : K) (v : Option V) : (m.put k v).find k = v := by
  simp [find_put]

theorem find_put_of_ne (m : StdMap K V) {k j : K} (v : Option V) (ne : j ≠ k) :
    (m.put k v).find j = m.find j := by
  simp [find_put, ne]

@[simp] theorem put_find (m : StdMap K V) (k : K) : m.put k (m.find k) = m := by
  ext j
  by_cases same : j = k <;> simp [find_put, same]

theorem find_assign (m : StdMap K V) (k j : K) (v : V) :
    (m.assign k v).find j = if j = k then some v else m.find j := find_put ..

@[simp] theorem find_assign_self (m : StdMap K V) (k : K) (v : V) :
    (m.assign k v).find k = some v := find_put_self ..

theorem find_erase (m : StdMap K V) (k j : K) :
    (m.erase k).find j = if j = k then none else m.find j := find_put ..

@[simp] theorem find_erase_self (m : StdMap K V) (k : K) : (m.erase k).find k = none :=
  find_put_self ..

theorem assign_of_present {m : StdMap K V} {k : K} {v : V} (present : m.find k = some v) :
    m.assign k v = m := by
  rw [← put_some, ← present, put_find]

theorem emplace_of_absent {m : StdMap K V} {k : K} (v : V) (absent : m.find k = none) :
    m.emplace k v = m.assign k v := by
  simp [emplace, absent]

theorem subscript_of_present [Inhabited V] {m : StdMap K V} {k : K} {v : V}
    (present : m.find k = some v) : m.subscript k = (m, v) := by
  simp [subscript, present]

theorem subscript_of_absent [Inhabited V] {m : StdMap K V} {k : K} (absent : m.find k = none) :
    m.subscript k = (m.assign k default, default) := by
  simp [subscript, absent]

theorem erase_of_absent {m : StdMap K V} {k : K} (absent : m.find k = none) : m.erase k = m := by
  rw [← put_none, ← absent, put_find]

theorem All.put {m : StdMap K V} {P : K → V → Prop} (all : m.All P) {k : K} {v : Option V}
    (new : ∀ x, v = some x → P k x) : (m.put k v).All P := by
  intro j x found
  rw [find_put] at found
  split at found
  · rename_i same
    exact same ▸ new x found
  · exact all j x found

theorem All.emplace {m : StdMap K V} {P : K → V → Prop} (all : m.All P) {k : K} {v : V}
    (new : P k v) : (m.emplace k v).All P := by
  unfold StdMap.emplace
  split
  · exact all
  · exact all.put fun x same => Option.some.inj same ▸ new

theorem All.subscript [Inhabited V] {m : StdMap K V} {P : K → V → Prop} (all : m.All P) {k : K}
    (empty : P k default) : (m.subscript k).1.All P ∧ P k (m.subscript k).2 := by
  cases bound : m.find k with
  | some v =>
      rw [subscript_of_present bound]
      exact ⟨all, all k v bound⟩
  | none =>
      rw [subscript_of_absent bound, ← put_some]
      refine ⟨all.put fun x same => ?_, empty⟩
      exact Option.some.inj same ▸ empty

theorem restrict_put (m : StdMap K V) (keep : K → Bool) (k : K) (v : Option V) :
    (m.put k v).restrict keep = if keep k then (m.restrict keep).put k v else m.restrict keep := by
  ext j
  by_cases kept : keep k <;> by_cases same : j = k <;> simp [find_put, kept, same]

theorem restrict_assign (m : StdMap K V) (keep : K → Bool) (k : K) (v : V) :
    (m.assign k v).restrict keep =
      if keep k then (m.restrict keep).assign k v else m.restrict keep := restrict_put ..

theorem restrict_erase (m : StdMap K V) (keep : K → Bool) (k : K) :
    (m.erase k).restrict keep = if keep k then (m.restrict keep).erase k else m.restrict keep :=
  restrict_put ..

/-! ### Entries -/

def Iterates (m : StdMap K V) (entries : List (K × V)) : Prop :=
  ∀ k v, (k, v) ∈ entries ↔ m.find k = some v

def ofEntries (entries : List (K × V)) : StdMap K V :=
  entries.foldl (fun m e => m.emplace e.1 e.2) empty

theorem find_emplace (m : StdMap K V) (k j : K) (v : V) :
    (m.emplace k v).find j = if j = k then some ((m.find k).getD v) else m.find j := by
  cases present : m.find k with
  | none =>
      rw [emplace_of_absent v present, find_assign]
      rfl
  | some old =>
      simp only [emplace, present, Option.getD_some]
      split
      · rename_i same
        rw [same, present]
      · rfl

theorem find_foldl_emplace (entries : List (K × V)) (m : StdMap K V) (k : K) :
    (entries.foldl (fun m e => m.emplace e.1 e.2) m).find k =
      (m.find k).or ((entries.find? fun e => e.1 = k).map Prod.snd) := by
  induction entries generalizing m with
  | nil => simp
  | cons e rest ih =>
      rw [List.foldl_cons, ih, find_emplace, List.find?_cons]
      by_cases same : k = e.1
      · subst same
        cases present : m.find e.1 <;> simp
      · have other : ¬ e.1 = k := fun eq => same eq.symm
        simp [same, other]

theorem Iterates.ofEntries_eq {m : StdMap K V} {entries : List (K × V)}
    (iterates : m.Iterates entries) : ofEntries entries = m := by
  ext1
  funext k
  rw [ofEntries, find_foldl_emplace, find_empty, Option.none_or]
  cases first : entries.find? fun e => e.1 = k with
  | none =>
      have absent := List.find?_eq_none.mp first
      cases present : m.find k with
      | none => rfl
      | some v => exact absurd (decide_eq_true rfl) (absent _ ((iterates k v).mpr present))
  | some e =>
      have same : e.1 = k := by simpa using List.find?_some first
      have mem : (k, e.2) ∈ entries := same ▸ List.mem_of_find?_eq_some first
      exact ((iterates k e.2).mp mem).symm

end Update

end StdMap
