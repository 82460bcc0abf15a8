import CoapsClient.Model.Shell.Text
import Mathlib.Data.List.TakeWhile
import CoapsClient.Model.Shell.Dispatch

/-! # Looking a command up, whatever its case

What stands in front of the letters is its own lower case and that of no other character. This holds for the zero at the
end of a text, so two texts that compare as equal end at the same place, and for the blanks between words. A head that
`strstart` finds is such a text in front of a rest.

The parts of `sh_cmd_get` and `sh_cmd` that compare a text with the words of an entry, each with its own calls, and the
string functions with a null pointer for the separators.
-/

namespace CoapsClient.ShCmd

/-- Equal but for the case of letters. -/
def SameText (left right : Text) : Prop := left.map Char.toLower = right.map Char.toLower

instance (left right : Text) : Decidable (SameText left right) := inferInstanceAs (Decidable (_ = _))

/-- A character in front of the letters is the lower case of itself only. -/
theorem toLower_eq_iff {char other : Char} (low : other.toNat < 65) : char.toLower = other ↔ char = other := by
  refine ⟨fun same => ?_, fun same => by rw [same, toLower_of_lt low]⟩
  unfold Char.toLower at same
  split at same
  · next letter =>
    have bound : char.val.toNat ≤ 90 := letter.2
    have sum : (char.val + 32).toNat = other.toNat := congrArg Char.toNat same
    rw [UInt32.toNat_add] at sum
    change (char.val.toNat + 32) % 4294967296 = other.toNat at sum
    have least : 65 ≤ char.val.toNat := letter.1
    omega
  · exact same

theorem toLower_toNat_ne_zero {char : Char} (plain : char ≠ Char.ofNat 0) : char.toLower.toNat ≠ 0 :=
  fun zero => plain ((toLower_eq_iff (by decide)).mp (Char.toNat_inj.mp zero))

section SameText

variable {left middle right : Text}

theorem SameText.refl (text : Text) : SameText text text := rfl

theorem SameText.symm (same : SameText left right) : SameText right left := Eq.symm same

theorem SameText.trans (first : SameText left middle) (second : SameText middle right) : SameText left right :=
  Eq.trans first second

theorem SameText.length (same : SameText left right) : left.length = right.length := by
  simpa using congrArg List.length same

/-- A character in front of the letters is in both texts. -/
theorem SameText.mem_iff {char : Char} (same : SameText left right) (low : char.toNat < 65) : char ∈ left ↔ char ∈ right := by
  have mapped (text : Text) : char ∈ text.map Char.toLower ↔ char ∈ text := by
    simp only [List.mem_map, toLower_eq_iff low, exists_eq_right]
  rw [← mapped left, ← mapped right, same]

/-- `stricmp` of strings. -/
theorem stricmp_eq_zero (plainLeft : Char.ofNat 0 ∉ left) (plainRight : Char.ofNat 0 ∉ right) :
    stricmp left right = 0 ↔ SameText left right := by
  induction left generalizing right with
  | nil =>
    cases right with
    | nil => exact iff_of_true rfl rfl
    | cons cur right =>
      have some' := toLower_toNat_ne_zero fun same => plainRight (same ▸ List.mem_cons_self)
      exact iff_of_false (by simp only [stricmp]; omega) (List.cons_ne_nil _ _).symm
  | cons char left ih =>
    cases right with
    | nil =>
      have some' := toLower_toNat_ne_zero fun same => plainLeft (same ▸ List.mem_cons_self)
      exact iff_of_false (by simp only [stricmp]; omega) (List.cons_ne_nil _ _)
    | cons cur right =>
      have rest := ih (fun found => plainLeft (List.mem_cons_of_mem _ found)) fun found =>
        plainRight (List.mem_cons_of_mem _ found)
      rw [SameText, List.map_cons, List.map_cons, List.cons.injEq]
      constructor
      · intro same
        obtain ⟨first, same⟩ := stricmp_cons same
        exact ⟨first, rest.mp same⟩
      · rintro ⟨first, same⟩
        rw [stricmp, if_pos first]
        exact rest.mpr same

end SameText

/-- Equal, but for the case of letters if that is ignored. -/
def Same (ignoreCase : Bool) (left right : Text) : Prop := if ignoreCase then SameText left right else left = right

section Same

variable {ignoreCase : Bool} {value head left right : Text}

private theorem same_cons {char cur : Char} : Same ignoreCase (char :: left) (cur :: right) ↔
    sameChar ignoreCase char cur = true ∧ Same ignoreCase left right := by
  cases ignoreCase <;> simp [Same, SameText, sameChar]

theorem Same.length (same : Same ignoreCase left right) : left.length = right.length := by
  cases ignoreCase with
  | false => exact congrArg List.length same
  | true => exact SameText.length same

private theorem same_nil : Same ignoreCase [] [] := by
  cases ignoreCase <;> rfl

theorem startsWith_iff : startsWith ignoreCase value head = true ↔
    ∃ word rest, value = word ++ rest ∧ Same ignoreCase word head := by
  induction head generalizing value with
  | nil =>
    have begins : startsWith ignoreCase value [] = true := by cases value <;> rfl
    exact iff_of_true begins ⟨[], value, rfl, same_nil⟩
  | cons cur head ih =>
    cases value with
    | nil =>
      refine iff_of_false (by simp [startsWith]) ?_
      rintro ⟨word, rest, empty, same⟩
      obtain ⟨rfl, -⟩ := List.append_eq_nil_iff.mp empty.symm
      exact absurd same.length (by simp)
    | cons char value =>
      rw [startsWith, Bool.and_eq_true, ih]
      constructor
      · rintro ⟨first, word, rest, rfl, same⟩
        exact ⟨char :: word, rest, rfl, same_cons.mpr ⟨first, same⟩⟩
      · rintro ⟨word, rest, split, same⟩
        cases word with
        | nil => exact absurd same.length (by simp)
        | cons other word =>
          obtain ⟨rfl, rfl⟩ := List.cons.inj split
          obtain ⟨first, same⟩ := same_cons.mp same
          exact ⟨first, word, rest, rfl, same⟩

/-- The head is found, and its length is that of the word. -/
theorem strstart_of_word {word rest : Text} (same : Same ignoreCase word head) :
    strstart (word ++ rest) head ignoreCase = word.length := by
  rw [strstart, if_pos (startsWith_iff.mpr ⟨word, rest, rfl, same⟩), same.length]

end Same

/-- A text without the separator is a word of its own. -/
theorem parseNextText_word {word : Text} {sep : Char} {len : ℕ} (plain : sep ∉ word) (short : word.length < len) :
    (parseNextText word sep len).1 = word := by
  have start : ¬ word.head? = some sep := fun first => plain (List.mem_of_head? first)
  have all : word.takeWhile (· ≠ sep) = word := by
    rw [List.takeWhile_eq_self_iff]
    intro char member
    simpa using fun same : char = sep => plain (same ▸ member)
  simp only [parseNextText, if_neg start, all]
  exact List.take_of_length_le (by omega)

/-- The condition of `sh_cmd_get` for an entry. -/
def Entry.selects (entry : Entry) (cmd : Text) : Bool :=
  if 0 < strstartsep cmd entry.cmd true [' '] then true
  else match entry.atText with
    | some atText => 0 < strstartsep cmd atText true [' ', '=']
    | none => false

/-- `strstartsep`, with none for a null pointer. -/
def strstartsepNull (value head : Text) (ignoreCase : Bool) : Option Text → ℕ
  | none => strstart value head ignoreCase
  | some separators => strstartsep value head ignoreCase separators

/-- `strsepend`, with none for a null pointer. -/
def strsepend (value tail : Text) (ignoreCase : Bool) : Option Text → ℕ
  | none => strend value tail ignoreCase
  | some separators =>
    let index := strend value tail ignoreCase
    if index = 0 then 0
    else
      let pos : ℤ := value.length - index - 1
      if 0 ≤ pos then
        match value[pos.toNat]? with
        | none => index
        | some sep => if separators.any (sameChar ignoreCase sep) then index + 1 else 0
      else index

end CoapsClient.ShCmd
