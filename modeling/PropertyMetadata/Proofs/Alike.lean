import Mathlib.Algebra.Field.Rat
import Mathlib.Tactic.FieldSimp
import Mathlib.Tactic.Ring
import PropertyMetadata.Json.Basic

/-! Values that are alike. Values of several kinds count as one name: a truth value, an integer and
a double do so if their numbers are equal. Scalars that are alike are not told apart by any other
value. -/

namespace PropertyMetadata

namespace Number.Double

variable {s s' : Bool} {m m' : Nat} {e e' : Int}

def value (negative : Bool) (mantissa : Nat) (exponent : Int) : ℚ :=
  signed negative mantissa * 2 ^ exponent

theorem twoTo_ne_zero (n : Nat) : (twoTo n : ℚ) ≠ 0 := by
  have positive : 0 < twoTo n := Nat.pow_pos (by decide)
  exact_mod_cast positive.ne'

theorem zpow_mul_twoTo (e : Int) : (2 : ℚ) ^ e * twoTo (-e).toNat = twoTo e.toNat := by
  have whole (n : Nat) : (twoTo n : ℚ) = 2 ^ (n : Int) := by
    rw [zpow_natCast]
    exact Nat.cast_pow 2 n
  rw [whole, whole, ← zpow_add₀ two_ne_zero]
  congr 1
  omega

theorem same_finite_iff : (finite s m e).same (finite s' m' e') = true ↔
    value s m e = value s' m' e' := by
  have left : (signed s m * twoTo e.toNat * twoTo (-e').toNat : ℚ) =
      value s m e * (twoTo (-e).toNat * twoTo (-e').toNat) := by
    rw [← zpow_mul_twoTo e, value]
    ring
  have right : (signed s' m' * twoTo e'.toNat * twoTo (-e).toNat : ℚ) =
      value s' m' e' * (twoTo (-e).toNat * twoTo (-e').toNat) := by
    rw [← zpow_mul_twoTo e', value]
    ring
  have scale := mul_ne_zero (twoTo_ne_zero (-e).toNat) (twoTo_ne_zero (-e').toNat)
  rw [same, beq_iff_eq, ← Int.cast_inj (α := ℚ)]
  push_cast
  rw [left, right]
  exact mul_left_inj' scale

theorem sameInt_finite_iff {i : Int} : (finite s m e).sameInt i = true ↔ value s m e = i := by
  have left : (signed s m * twoTo e.toNat : ℚ) = value s m e * twoTo (-e).toNat := by
    rw [← zpow_mul_twoTo e, value]
    ring
  rw [sameInt, beq_iff_eq, ← Int.cast_inj (α := ℚ)]
  push_cast
  rw [left]
  exact mul_left_inj' (twoTo_ne_zero _)

end Number.Double

namespace Json

open Number

inductive Name where
  | null
  | text (s : String)
  | number (q : ℚ)
  | infinite (negative : Bool)

/-- The name that a value is; what is no number is no name, and collections are none. -/
def name? : Json → Option Name
  | .null => some .null
  | .bool b => some (.number (if b then 1 else 0 : Int))
  | .int i => some (.number i)
  | .double (.finite s m e) => some (.number (Double.value s m e))
  | .double (.infinite s) => some (.infinite s)
  | .double .nan => none
  | .string s => some (.text s)
  | .array _ | .object _ => none

/-- Two values are one name. -/
def SameName (x y : Json) : Prop := ∃ n, y.name? = some n ∧ x.name? = some n

theorem same_iff_name {d d' : Double} : d.same d' = true ↔ SameName (double d) (double d') := by
  cases d with
  | finite =>
    cases d' with
    | finite => simp [SameName, name?, Double.same_finite_iff]
    | infinite | nan => simp [SameName, name?, Double.same]
  | infinite => cases d' <;> simp [SameName, name?, Double.same]
  | nan => simp [SameName, name?, Double.same]

theorem sameInt_iff_name {d : Double} {i : Int} :
    d.sameInt i = true ↔ SameName (double d) (int i) := by
  cases d with
  | finite => simp [SameName, name?, Double.sameInt_finite_iff]
  | infinite | nan => simp [SameName, name?, Double.sameInt]

/-- Values are alike if they are one name. -/
theorem alike_iff_name {x y : Json} (h : x.isScalar = true ∨ y.isScalar = true) :
    x.alike y = true ↔ SameName x y := by
  have swapped {d : Double} {i : Int} : SameName (int i) (double d) ↔ SameName (double d) (int i) :=
    exists_congr fun _ => and_comm
  have apart (d : Double) : ¬ SameName (double d) null ∧ ∀ s, ¬ SameName (double d) (string s) := by
    cases d <;> simp [SameName, name?]
  have apart' (d : Double) :
      ¬ SameName null (double d) ∧ ∀ s, ¬ SameName (string s) (double d) := by
    cases d <;> simp [SameName, name?]
  cases x <;> cases y <;>
    simp only [alike, number?, sameNumber, same_iff_name, sameInt_iff_name, swapped, apart, apart',
      beq_iff_eq, Bool.false_eq_true] <;>
    simp [SameName, name?, isScalar, -Int.cast_ite] at h ⊢

/-- Values that are not told apart by any other value. -/
structure Interchangeable (x y : Json) : Prop where
  scalar : x.isScalar = y.isScalar
  left : ∀ z : Json, x.alike z = y.alike z
  right : ∀ z : Json, z.alike x = z.alike y

theorem Interchangeable.refl (x : Json) : Interchangeable x x := ⟨rfl, fun _ => rfl, fun _ => rfl⟩

theorem interchangeable_of_alike {x y z : Json} (hx : x.isScalar = true) (hy : y.isScalar = true)
    (zx : z.alike x = true) (zy : z.alike y = true) : Interchangeable x y := by
  obtain ⟨n, hxn, hz⟩ := (alike_iff_name (.inr hx)).1 zx
  obtain ⟨_, hyn, hz'⟩ := (alike_iff_name (.inr hy)).1 zy
  obtain rfl := Option.some.inj (hz.symm.trans hz')
  have same : x.name? = y.name? := hxn.trans hyn.symm
  refine ⟨hx.trans hy.symm, fun w => ?_, fun w => ?_⟩
  · rw [Bool.eq_iff_iff, alike_iff_name (.inl hx), alike_iff_name (.inl hy), SameName, SameName,
      same]
  · rw [Bool.eq_iff_iff, alike_iff_name (.inr hx), alike_iff_name (.inr hy), SameName, SameName,
      same]

theorem isScalar_of_name? {x : Json} {n : Name} (h : x.name? = some n) : x.isScalar = true := by
  cases x with
  | array | object => cases h
  | _ => rfl

theorem Interchangeable.of_alike {x y : Json} (h : x.isScalar = true ∨ y.isScalar = true)
    (alike : x.alike y = true) : Interchangeable x y := by
  obtain ⟨n, hy, hx⟩ := (alike_iff_name h).1 alike
  have scalar := isScalar_of_name? hx
  exact interchangeable_of_alike scalar (isScalar_of_name? hy)
    ((alike_iff_name (.inl scalar)).2 ⟨n, hx, hx⟩) alike

end Json

end PropertyMetadata
