import Mathlib.Data.Nat.Digits.Defs
import Mathlib.Tactic

/-!
# Wire formats

A format encodes a value, decodes one from the front of a text, and says of a value how many
symbols it takes. The next value is read where the decoded one says it ends, so a format carries a
value when its size and its encoding agree and nothing behind the encoding disturbs the decoder.
-/

namespace WireFormat
variable {σ α β : Type*}

structure Format (σ α : Type*) where
  encode : α → List σ
  size : α → Nat
  decode : List σ → α

namespace Format

structure Carries (f : Format σ α) (a : α) : Prop where
  size_eq : f.size a = (f.encode a).length
  decode_append : ∀ rest, f.decode (f.encode a ++ rest) = a

theorem Carries.drop_append {f : Format σ α} {a : α} (carries : f.Carries a) (rest : List σ) :
    (f.encode a ++ rest).drop (f.size a) = rest := by
  rw [carries.size_eq, List.drop_left]

/-! ## Records -/

def field (f : Format σ α) (g : Format σ β) : Format σ (α × β) where
  encode p := f.encode p.1 ++ g.encode p.2
  size p := f.size p.1 + g.size p.2
  decode text :=
    let a := f.decode text
    (a, g.decode (text.drop (f.size a)))

theorem Carries.field {f : Format σ α} {g : Format σ β} {a : α} {b : β} (first : f.Carries a)
    (second : g.Carries b) : (f.field g).Carries (a, b) := by
  constructor
  · simp only [Format.field, List.length_append, first.size_eq, second.size_eq]
  · intro rest
    simp only [Format.field, List.append_assoc, first.decode_append, first.drop_append,
      second.decode_append]

def view (f : Format σ α) (into : β → α) (back : α → β) : Format σ β where
  encode b := f.encode (into b)
  size b := f.size (into b)
  decode text := back (f.decode text)

theorem Carries.view {f : Format σ α} (into : β → α) {back : α → β} {b : β}
    (carries : f.Carries (into b)) (inverse : back (into b) = b) :
    (f.view into back).Carries b := by
  refine ⟨carries.size_eq, ?_⟩
  intro rest
  simp only [Format.view, carries.decode_append, inverse]

/-! ## Sequences -/

def decodeMany (f : Format σ α) : Nat → List σ → List α
  | 0, _ => []
  | n + 1, text =>
      let a := f.decode text
      a :: f.decodeMany n (text.drop (f.size a))

theorem decodeMany_flatMap {f : Format σ α} {values : List α} (rest : List σ)
    (carries : ∀ a ∈ values, f.Carries a) :
    f.decodeMany values.length (values.flatMap f.encode ++ rest) = values := by
  induction values with
  | nil => rfl
  | cons a values ih =>
      have first := carries a (List.mem_cons_self ..)
      have later := ih fun b mem => carries b (List.mem_cons_of_mem a mem)
      simp only [List.flatMap_cons, List.append_assoc, List.length_cons, decodeMany,
        first.decode_append, first.drop_append, later]

theorem sum_size {f : Format σ α} {values : List α} (carries : ∀ a ∈ values, f.Carries a) :
    (values.map f.size).sum = (values.flatMap f.encode).length := by
  rw [List.length_flatMap]
  congr 1
  exact List.map_congr_left fun a mem => (carries a mem).size_eq

def sequence (f : Format σ α) (count : Format σ Nat) : Format σ (List α) where
  encode values := count.encode values.length ++ values.flatMap f.encode
  size values := count.size values.length + (values.map f.size).sum
  decode text :=
    let n := count.decode text
    f.decodeMany n (text.drop (count.size n))

theorem Carries.sequence {f : Format σ α} {count : Format σ Nat} {values : List α}
    (counted : count.Carries values.length) (carries : ∀ a ∈ values, f.Carries a) :
    (f.sequence count).Carries values := by
  constructor
  · simp only [Format.sequence, counted.size_eq, sum_size carries, List.length_append]
  · intro rest
    simp only [Format.sequence, List.append_assoc, counted.decode_append, counted.drop_append,
      decodeMany_flatMap rest carries]

end Format

/-! ## Little-endian numbers -/

def littleEndian (k : Nat) : Format UInt8 Nat where
  encode x := (List.range k).map fun i => UInt8.ofNat (x / 256 ^ i)
  size _ := k
  decode text := Nat.ofDigits 256 ((text.take k).map UInt8.toNat)

@[simp] theorem length_littleEndian (k x : Nat) : ((littleEndian k).encode x).length = k := by
  simp [littleEndian]

theorem ofDigits_digits (k x : Nat) :
    Nat.ofDigits 256 ((List.range k).map fun i => x / 256 ^ i % 256) = x % 256 ^ k := by
  induction k with
  | zero => simp [Nat.mod_one]
  | succ k ih =>
      rw [List.range_succ, List.map_append, Nat.ofDigits_append, ih, List.map_singleton,
        Nat.ofDigits_singleton, List.length_map, List.length_range, Nat.mod_pow_succ]

theorem decode_littleEndian (k x : Nat) (rest : List UInt8) :
    (littleEndian k).decode ((littleEndian k).encode x ++ rest) = x % 256 ^ k := by
  have front : ((littleEndian k).encode x ++ rest).take k = (littleEndian k).encode x :=
    List.take_left' (length_littleEndian k x)
  have digits : ((littleEndian k).encode x).map UInt8.toNat =
      (List.range k).map fun i => x / 256 ^ i % 256 := by
    simp [littleEndian, Function.comp_def]
  change Nat.ofDigits 256 ((((littleEndian k).encode x ++ rest).take k).map UInt8.toNat) = _
  rw [front, digits, ofDigits_digits]

theorem carries_littleEndian {k x : Nat} (bound : x < 256 ^ k) : (littleEndian k).Carries x := by
  refine ⟨(length_littleEndian k x).symm, ?_⟩
  intro rest
  rw [decode_littleEndian, Nat.mod_eq_of_lt bound]

def signed (k : Nat) : Format UInt8 Int :=
  (littleEndian k).view (fun z => (z % 256 ^ k).toNat) fun x => (x : Int).bmod (256 ^ k)

theorem carries_signed {k : Nat} {z : Int} (low : -(256 ^ k) ≤ 2 * z) (high : 2 * z < 256 ^ k) :
    (signed k).Carries z := by
  have positive : (0 : Int) < 256 ^ k := by positivity
  have nonneg : 0 ≤ z % 256 ^ k := Int.emod_nonneg z positive.ne'
  have bound : (z % 256 ^ k).toNat < 256 ^ k := by
    have below := Int.emod_lt_of_pos z positive
    rw [← Int.toNat_of_nonneg nonneg] at below
    exact_mod_cast below
  refine Format.Carries.view (fun z : Int => (z % 256 ^ k).toNat) (carries_littleEndian bound) ?_
  rw [Int.toNat_of_nonneg nonneg]
  have modulus : (256 : Int) ^ k = ((256 ^ k : Nat) : Int) := by push_cast; rfl
  rw [modulus] at low high ⊢
  rw [Int.emod_bmod]
  apply Int.bmod_eq_of_le <;> omega

end WireFormat
