import SospDemo.Library.StdMap

/-!
# Sequential objects

An object answers each operation and moves to a next state. A keyed machine is an object over a
map whose operations read and write the entry under their own key only, so that what happens
under one key is decided by the operations on that key.
-/

structure SequentialObject (S Op Res : Type*) where
  init : S
  apply : S → Op → Res × S

namespace SequentialObject
variable {S Op Res : Type*} (O : SequentialObject S Op Res)

def after (ops : List Op) : S := ops.foldl (fun s op => (O.apply s op).2) O.init

def answer (before : List Op) (op : Op) : Res := (O.apply (O.after before) op).1

def transcriptFrom (s : S) : List Op → List (Op × Res)
  | [] => []
  | op :: rest => (op, (O.apply s op).1) :: transcriptFrom (O.apply s op).2 rest

def transcript (ops : List Op) : List (Op × Res) := O.transcriptFrom O.init ops

@[simp] theorem after_concat (ops : List Op) (op : Op) :
    O.after (ops ++ [op]) = (O.apply (O.after ops) op).2 := by
  simp [after]

@[simp] theorem transcript_nil : O.transcript [] = [] := rfl

theorem transcriptFrom_append (s : S) (xs ys : List Op) :
    O.transcriptFrom s (xs ++ ys) = O.transcriptFrom s xs ++
      O.transcriptFrom (xs.foldl (fun s op => (O.apply s op).2) s) ys := by
  induction xs generalizing s with
  | nil => rfl
  | cons op rest ih => simp [transcriptFrom, ih]

theorem transcript_concat (ops : List Op) (op : Op) :
    O.transcript (ops ++ [op]) = O.transcript ops ++ [(op, O.answer ops op)] := by
  simp [transcript, transcriptFrom_append, transcriptFrom, answer, after]

theorem transcript_prefix {xs ys : List Op} (isPrefix : xs <+: ys) :
    O.transcript xs <+: O.transcript ys := by
  obtain ⟨later, rfl⟩ := isPrefix
  rw [transcript, transcript, transcriptFrom_append]
  exact List.prefix_append _ _

theorem map_fst_transcript (ops : List Op) : (O.transcript ops).map Prod.fst = ops := by
  induction ops using List.reverseRecOn with
  | nil => rfl
  | append_singleton ops op ih => simp [transcript_concat, ih]

theorem transcript_unique {ops : List Op} (nodup : ops.Nodup) {op : Op} {res res' : Res}
    (mem : (op, res) ∈ O.transcript ops) (mem' : (op, res') ∈ O.transcript ops) : res = res' := by
  have injective := List.inj_on_of_nodup_map (f := Prod.fst) (l := O.transcript ops)
    (by rwa [map_fst_transcript])
  exact congrArg Prod.snd (injective mem mem' rfl)

theorem mem_transcript {ops : List Op} {op : Op} {res : Res} :
    (op, res) ∈ O.transcript ops ↔
      ∃ before later, ops = before ++ op :: later ∧ O.answer before op = res := by
  induction ops using List.reverseRecOn with
  | nil => simp
  | append_singleton ops last ih =>
      rw [transcript_concat, List.mem_append, ih, List.mem_singleton, Prod.mk.injEq]
      constructor
      · rintro (⟨before, later, rfl, answered⟩ | ⟨rfl, rfl⟩)
        · exact ⟨before, later ++ [last], by simp, answered⟩
        · exact ⟨ops, [], rfl, rfl⟩
      · rintro ⟨before, later, split, answered⟩
        rcases List.eq_nil_or_concat later with rfl | ⟨later, x, rfl⟩
        · obtain ⟨rfl, same⟩ := List.append_inj' split rfl
          obtain rfl := List.singleton_inj.mp same
          exact Or.inr ⟨rfl, answered.symm⟩
        · refine Or.inl ⟨before, later, ?_, answered⟩
          rw [List.concat_eq_append, ← List.cons_append, ← List.append_assoc] at split
          exact (List.append_inj' split rfl).1

end SequentialObject

structure KeyedMachine (K V Op Res : Type*) where
  key : Op → K
  act : Op → Option V → Res × Option V

namespace KeyedMachine
variable {K V Op Res : Type*} [DecidableEq K] (M : KeyedMachine K V Op Res)

@[simps] def toObject : SequentialObject (StdMap K V) Op Res where
  init := .empty
  apply m op := ((M.act op (m.find (M.key op))).1, m.put (M.key op) (M.act op (m.find (M.key op))).2)

theorem find_after (ops : List Op) (k : K) :
    (M.toObject.after ops).find k =
      (ops.filter fun op => M.key op = k).foldl (fun v op => (M.act op v).2) none := by
  induction ops using List.reverseRecOn with
  | nil => rfl
  | append_singleton ops op ih =>
      by_cases same : M.key op = k
      · subst same
        simp [List.filter_append, ih]
      · have other : k ≠ M.key op := fun eq => same eq.symm
        simp [List.filter_append, ih, same, StdMap.find_put_of_ne _ _ other]

theorem find_after_filter (ops : List Op) (keep : Op → Bool) (k : K)
    (keeps : ∀ op, M.key op = k → keep op) :
    (M.toObject.after (ops.filter keep)).find k = (M.toObject.after ops).find k := by
  rw [find_after, find_after, List.filter_filter]
  congr 1
  apply List.filter_congr
  intro op _
  by_cases same : M.key op = k <;> simp [same, keeps]

theorem answer_filter (before : List Op) (keep : Op → Bool) (op : Op)
    (keeps : ∀ other, M.key other = M.key op → keep other) :
    M.toObject.answer (before.filter keep) op = M.toObject.answer before op := by
  simp only [SequentialObject.answer, toObject_apply]
  rw [M.find_after_filter before keep (M.key op) keeps]

end KeyedMachine
