/-
Texts as Java sees them.

A text is blank when it is empty or has only white space in it; what is white space is the list
of `Character.isWhitespace`, which leaves the no-break spaces out.
-/
import Mathlib.Data.List.DropRight

namespace InvestmentPlatform.JavaText

open List

/-- `Character.isWhitespace`. -/
def isWhitespace (c : Char) : Bool :=
  let n := c.toNat
  (9 ≤ n && n ≤ 13) || (28 ≤ n && n ≤ 32) || n = 0x1680 || (0x2000 ≤ n && n ≤ 0x2006) ||
    (0x2008 ≤ n && n ≤ 0x200A) || n = 0x2028 || n = 0x2029 || n = 0x205F || n = 0x3000

/-- `text.isBlank()`. -/
def isBlank (text : String) : Bool := text.toList.all isWhitespace

/-- `text.trim()`, which drops every character up to the space from both ends. -/
def trim (text : String) : String :=
  String.ofList (((text.toList.dropWhile (· ≤ ' ')).reverse.dropWhile (· ≤ ' ')).reverse)

theorem dropWhile_rdropWhile (p : Char → Bool) (l : List Char) :
    ((l.dropWhile p).rdropWhile p).dropWhile p = (l.dropWhile p).rdropWhile p := by
  have hfront := dropWhile_eq_self_iff.mp (dropWhile_idempotent p l)
  have hpre := rdropWhile_prefix p (l.dropWhile p)
  rw [dropWhile_eq_self_iff]
  intro hpos
  rw [hpre.getElem hpos]
  exact hfront (Nat.lt_of_lt_of_le hpos hpre.length_le)

/-- Nothing is left at the ends to drop. -/
theorem trim_trim (text : String) : trim (trim text) = trim text := by
  unfold trim
  rw [String.toList_ofList]
  refine congrArg String.ofList ?_
  show List.rdropWhile _ (List.dropWhile _ (List.rdropWhile _ _)) = List.rdropWhile _ _
  rw [dropWhile_rdropWhile, rdropWhile_idempotent]

/-- `text.toUpperCase()`, which is also how the database compares texts in any case. -/
class Casing where
  toUpperCase : String → String
  toUpperCase_idem : ∀ text, toUpperCase (toUpperCase text) = toUpperCase text
  isBlank_toUpperCase : ∀ text, isBlank (toUpperCase text) = isBlank text

/-! ### ASCII -/

theorem toUpper_cases (c : Char) :
    c.toUpper = c ∨ 97 ≤ c.toNat ∧ c.toNat ≤ 122 ∧ c.toUpper.toNat = c.toNat - 32 := by
  unfold Char.toUpper
  split
  · rename_i h
    right
    have hlow : 97 ≤ c.toNat := UInt32.le_iff_toNat_le.mp h.1
    have hhigh : c.toNat ≤ 122 := UInt32.le_iff_toNat_le.mp h.2
    refine ⟨hlow, hhigh, ?_⟩
    show (c.val + ('A'.val - 'a'.val)).toNat = c.val.toNat - 32
    rw [UInt32.toNat_add]
    have hshift : ('A'.val - 'a'.val).toNat = 4294967264 := by decide
    have hval : c.val.toNat = c.toNat := rfl
    omega
  · exact Or.inl rfl

theorem toUpper_toUpper (c : Char) : c.toUpper.toUpper = c.toUpper := by
  rcases toUpper_cases c with h | ⟨hlow, hhigh, heq⟩
  · rw [h, h]
  · rcases toUpper_cases c.toUpper with h | ⟨hlow', -, -⟩
    · exact h
    · omega

theorem isWhitespace_toUpper (c : Char) : isWhitespace c.toUpper = isWhitespace c := by
  rcases toUpper_cases c with h | ⟨hlow, hhigh, heq⟩
  · rw [h]
  · have hletter : ∀ d : Char, 65 ≤ d.toNat → d.toNat ≤ 122 → isWhitespace d = false := by
      intro d hlow hhigh
      simp only [isWhitespace, Bool.or_eq_false_iff, Bool.and_eq_false_iff, decide_eq_false_iff_not]
      omega
    rw [hletter c (by omega) hhigh, hletter c.toUpper (by omega) (by omega)]

/-- Texts of which only the ASCII letters have a case. -/
@[reducible] def asciiCasing : Casing where
  toUpperCase text := String.ofList (text.toList.map Char.toUpper)
  toUpperCase_idem text := by
    rw [String.toList_ofList, map_map]
    refine congrArg String.ofList (map_congr_left fun c _ => ?_)
    exact toUpper_toUpper c
  isBlank_toUpperCase text := by
    rw [isBlank, isBlank, String.toList_ofList, all_map]
    refine congrArg text.toList.all (funext fun c => ?_)
    exact isWhitespace_toUpper c

end InvestmentPlatform.JavaText
