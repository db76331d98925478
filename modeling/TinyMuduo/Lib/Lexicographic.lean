import Mathlib.Algebra.GroupWithZero.Nat
import Mathlib.Data.List.Lex

/-!
Texts in lexicographic order. A field writes the numbers below a bound with texts of
one length, in the order of the numbers; then texts of several fields are in the order
of the tuples of numbers.
-/
namespace TinyMuduo.Lexicographic

variable {α : Type*} [LT α]

/-- The first difference decides, whatever follows. -/
theorem append_lt_append {x y : List α} (h : x < y) (hlength : x.length = y.length)
    (u v : List α) : x ++ u < y ++ v := by
  induction x generalizing y with
  | nil =>
    have hnil : y = [] := List.length_eq_zero_iff.mp hlength.symm
    subst hnil
    cases h
  | cons a x ih =>
    cases y with
    | nil => cases h
    | cons b y =>
      cases h with
      | rel hab => exact .rel hab
      | cons hxy => exact .cons (ih hxy (Nat.succ.inj hlength))

structure TextField (α : Type*) [LT α] where
  text : ℕ → List α
  bound : ℕ
  width : ℕ
  length_text : ∀ v < bound, (text v).length = width
  text_lt : ∀ a b, a < b → b < bound → text a < text b

def layout : List (TextField α) → List ℕ → List α
  | field :: fields, v :: values => field.text v ++ layout fields values
  | _, _ => []

/-- There is a number for each field, below its bound. -/
def Fits : List (TextField α) → List ℕ → Prop
  | field :: fields, v :: values => v < field.bound ∧ Fits fields values
  | [], [] => True
  | _, _ => False

theorem layout_lt {fields : List (TextField α)} {values values' : List ℕ}
    (hfits : Fits fields values) (hfits' : Fits fields values') (h : values < values') :
    layout fields values < layout fields values' := by
  induction fields generalizing values values' with
  | nil =>
    cases values' with
    | nil => cases h
    | cons v' values' => exact hfits'.elim
  | cons field fields ih =>
    cases values with
    | nil => exact hfits.elim
    | cons v values =>
      cases values' with
      | nil => cases h
      | cons v' values' =>
        cases h with
        | rel hlt =>
          apply append_lt_append (field.text_lt v v' hlt hfits'.1)
          rw [field.length_text v hfits.1, field.length_text v' hfits'.1]
        | cons hlt => exact List.append_left_lt (ih hfits.2 hfits'.2 hlt)

theorem length_layout {fields : List (TextField α)} {values : List ℕ} (hfits : Fits fields values) :
    (layout fields values).length = (fields.map TextField.width).sum := by
  induction fields generalizing values with
  | nil => rfl
  | cons field fields ih =>
    cases values with
    | nil => exact hfits.elim
    | cons v values =>
      rw [layout, List.length_append, field.length_text v hfits.1, ih hfits.2]
      rfl

/-- Texts that are in the order of the numbers tell which number is the smaller one. -/
theorem lt_iff_lt_of_mono [@Std.Asymm α (· < ·)] {f : ℤ → List α} {P : ℤ → Prop}
    (hmono : ∀ a b, P a → P b → a < b → f a < f b) {a b : ℤ} (ha : P a) (hb : P b) :
    f a < f b ↔ a < b := by
  constructor
  · intro hlt
    rcases Int.lt_trichotomy a b with hab | rfl | hba
    · exact hab
    · exact absurd hlt (List.lt_asymm hlt)
    · exact absurd hlt (List.lt_asymm (hmono b a hb ha hba))
  · exact hmono a b ha hb

end TinyMuduo.Lexicographic
