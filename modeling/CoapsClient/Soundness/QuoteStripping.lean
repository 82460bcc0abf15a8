import CoapsClient.Model.Shell.Text
import Mathlib.Data.List.TakeWhile

/-! # Quote stripping

The quotes around a text are removed. A text of a single quote is taken for its own end, and an empty text may begin with
the zero that it is asked for; both leave the text. The length that is returned is always zero.
-/

namespace CoapsClient.ShCmd

open Machine (put_append textEnd)

/-- A text between quotes. -/
def Quoted (quote1 quote2 : Char) (text : Text) : Prop :=
  2 ≤ text.length ∧ text.head? = some quote1 ∧ text.getLast? = some quote2

instance (quote1 quote2 : Char) (text : Text) : Decidable (Quoted quote1 quote2 text) := inferInstanceAs (Decidable (_ ∧ _))

/-- What a call makes of a text with the zero behind it: the quotes are removed, with the length of what is left as the
result, and any other text is unchanged. -/
def Strips (call : Text → Option (ℤ × Text)) (quote1 quote2 : Char) (text : Text) : Prop :=
  ∃ result behind, call (text ++ [textEnd]) = some (result, behind) ∧
    if Quoted quote1 quote2 text then
      behind.takeWhile (· ≠ textEnd) = text.tail.dropLast ∧ result = text.tail.dropLast.length
    else behind = text ++ [textEnd]

/-- Only a pair of quotes is around nothing. -/
def Strippable (quote1 quote2 : Char) (text : Text) : Prop :=
  (text = [] → quote1 ≠ textEnd) ∧ (text.head? = some quote1 → text.getLast? = some quote2 → text.length = 2)

section Stripping

variable {quote1 quote2 : Char} {text : Text}

theorem strlen_eq (plain : textEnd ∉ text) : strlen (text ++ [textEnd]) = text.length := by
  have all : text.takeWhile (· ≠ textEnd) = text := by
    rw [List.takeWhile_eq_self_iff]
    intro char member
    simpa using fun same : char = textEnd => plain (same ▸ member)
  rw [strlen, List.takeWhile_append, all]
  simp

/-- The result is the index of the outer block. -/
private theorem strtrunc2_result {value behind : Text} {result : ℤ}
    (call : strtrunc2 value quote1 quote2 = some (result, behind)) :
    result = 0 := by
  obtain ⟨first, -, stripped⟩ := Option.bind_eq_some_iff.mp call
  obtain ⟨value', -, same⟩ := Option.map_eq_some_iff.mp stripped
  exact (congrArg Prod.fst same).symm

private theorem strtrunc2_cons {first : Char} {behind : Text} : strtrunc2 (first :: behind) quote1 quote2 =
    (if first = quote1 then truncate (first :: behind) quote2 else some (first :: behind)).map fun value => (0, value) := rfl

/-- The last character is the one in front of the zero. -/
private theorem readAt_last {last : Char} (plain : textEnd ∉ text ++ [last]) :
    readAt (text ++ [last] ++ [textEnd]) ((strlen (text ++ [last] ++ [textEnd]) : ℤ) - 1) = some last := by
  rw [strlen_eq plain]
  simp [readAt]

/-- A text that ends with another character is unchanged. -/
private theorem truncate_of_last {last : Char} (plain : textEnd ∉ text ++ [last]) (other : last ≠ quote2) :
    truncate (text ++ [last] ++ [textEnd]) quote2 = some (text ++ [last] ++ [textEnd]) := by
  simp only [truncate, readAt_last plain, Option.bind_eq_bind, Option.bind_some, if_neg other]

/-- A negative number of characters is a large one. -/
private theorem truncate_single (plain : quote1 ≠ textEnd) : truncate [quote1, textEnd] quote1 = none := by
  have length : strlen [quote1, textEnd] = 1 := @strlen_eq [quote1] (by simpa using plain.symm)
  have read : readAt [quote1, textEnd] ((strlen [quote1, textEnd] : ℤ) - 1) = some quote1 := by
    rw [length]
    rfl
  have far : moveDown [quote1, textEnd] (((strlen [quote1, textEnd] : ℤ) - 2) % 4294967296).toNat = none := by
    rw [length]
    exact if_neg (by simp)
  simp only [truncate, read, Option.bind_eq_bind, Option.bind_some, if_true, far, Option.bind_none]

/-- The characters between the quotes are moved to the start. -/
private theorem truncate_quoted (plain : textEnd ∉ quote1 :: text ++ [quote2]) (room : text.length < 4294967296) :
    truncate (quote1 :: text ++ [quote2] ++ [textEnd]) quote2 = some (text ++ [textEnd, quote2, textEnd]) := by
  have length : (strlen (quote1 :: text ++ [quote2] ++ [textEnd]) : ℤ) - 2 = text.length := by
    rw [strlen_eq plain]
    simp only [List.length_append, List.length_cons, List.length_nil]
    omega
  have size : ((text.length : ℤ) % 4294967296).toNat = text.length := by omega
  obtain ⟨last, rest⟩ : ∃ last, (quote1 :: text).drop text.length = [last] := List.length_eq_one_iff.mp (by simp)
  have moved : moveDown (quote1 :: text ++ [quote2] ++ [textEnd]) text.length = some (text ++ last :: [quote2, textEnd]) := by
    have fits : 1 + text.length ≤ (quote1 :: text ++ [quote2] ++ [textEnd]).length := by simp; omega
    have behind : (quote1 :: text ++ [quote2, textEnd]).drop text.length = last :: [quote2, textEnd] := by
      rw [List.drop_append_of_le_length (Nat.le_succ _), rest]
      rfl
    rw [moveDown, if_pos fits, List.append_assoc, List.singleton_append, behind]
    simp
  have stored : storeAt (text ++ last :: [quote2, textEnd]) text.length textEnd =
      some (text ++ [textEnd, quote2, textEnd]) := by
    rw [storeAt, if_pos (Int.natCast_nonneg _), Int.toNat_natCast, ← Nat.add_zero text.length, put_append]
    rfl
  have read := readAt_last plain
  simp only [truncate, read, length, size, moved, stored, Option.bind_eq_bind, Option.bind_some, if_true]

private theorem not_strips_of_none {call : Text → Option (ℤ × Text)} (none : call (text ++ [textEnd]) = .none) :
    ¬ Strips call quote1 quote2 text := by
  rintro ⟨result, behind, done, -⟩
  exact Option.some_ne_none _ (done.symm.trans none)

private theorem strips_of_unchanged {call : Text → Option (ℤ × Text)}
    (same : call (text ++ [textEnd]) = some (0, text ++ [textEnd]))
    (other : ¬ Quoted quote1 quote2 text) : Strips call quote1 quote2 text :=
  ⟨0, _, same, by rw [if_neg other]⟩

/-- An empty text has nothing in front of its zero. -/
private theorem strips_nil : Strips (strtrunc2 · quote1 quote2) quote1 quote2 [] ↔ quote1 ≠ textEnd := by
  by_cases zero : quote1 = textEnd
  · have none : strtrunc2 ([] ++ [textEnd]) quote1 quote2 = .none := by
      subst zero
      rfl
    exact iff_of_false (not_strips_of_none none) (not_not.mpr zero)
  · have same : strtrunc2 ([] ++ [textEnd]) quote1 quote2 = some (0, [] ++ [textEnd]) := by
      rw [List.nil_append, strtrunc2_cons, if_neg fun same => zero same.symm]
      rfl
    exact iff_of_true (strips_of_unchanged same fun quoted => by simpa using quoted.1) zero

private theorem getLast?_quoted {first last : Char} : (first :: (text ++ [last])).getLast? = some last :=
  List.getLast?_concat (l := first :: text)

/-- Between quotes there is nothing, if the result is its length. -/
private theorem strips_quoted (plain : textEnd ∉ quote1 :: text ++ [quote2]) :
    Strips (strtrunc2 · quote1 quote2) quote1 quote2 (quote1 :: text ++ [quote2]) ↔ text = [] := by
  have quoted : Quoted quote1 quote2 (quote1 :: text ++ [quote2]) := ⟨by simp, rfl, getLast?_quoted⟩
  constructor
  · rintro ⟨result, behind, call, stripped⟩
    rw [if_pos quoted, strtrunc2_result call] at stripped
    simpa using stripped.2.symm
  · rintro rfl
    have call := truncate_quoted plain (Nat.zero_lt_succ _)
    refine ⟨0, [textEnd, quote2, textEnd], ?_, ?_⟩
    · simp only [List.cons_append, strtrunc2_cons, if_true]
      exact congrArg (Option.map _) call
    · rw [if_pos quoted]
      exact ⟨by simp, rfl⟩

/-- A text that ends with another character. -/
private theorem strips_of_last {last : Char} (plain : textEnd ∉ text ++ [last]) (other : last ≠ quote2) :
    Strips (strtrunc2 · quote1 quote2) quote1 quote2 (text ++ [last]) := by
  refine strips_of_unchanged ?_ fun quoted => other (Option.some_inj.mp (List.getLast?_concat.symm.trans quoted.2.2))
  have call := truncate_of_last plain other
  obtain ⟨first, rest, same⟩ := List.exists_cons_of_ne_nil (List.concat_ne_nil last text)
  simp only [same, List.cons_append, strtrunc2_cons] at call ⊢
  rw [call, ite_self]
  rfl

/-- A text is stripped, if it is not a quote alone and there is nothing between its quotes. -/
private theorem strips_iff (plain : textEnd ∉ text) :
    Strips (strtrunc2 · quote1 quote2) quote1 quote2 text ↔ Strippable quote1 quote2 text := by
  cases text with
  | nil => exact strips_nil.trans (by simp [Strippable])
  | cons first rest =>
    by_cases head : first = quote1
    case neg =>
      refine iff_of_true (strips_of_unchanged ?_ fun quoted => head (by simpa using quoted.2.1)) ⟨nofun, ?_⟩
      · rw [List.cons_append, strtrunc2_cons, if_neg head]
        rfl
      · intro quote
        exact absurd (Option.some_inj.mp quote) head
    case pos =>
      subst head
      obtain rfl | ⟨inner, last, rfl⟩ := List.eq_nil_or_concat rest
      · by_cases tail : first = quote2
        · subst tail
          have none : strtrunc2 [first, textEnd] first first = .none := by
            rw [strtrunc2_cons, if_pos rfl, truncate_single fun same => plain (same ▸ List.mem_cons_self)]
            rfl
          exact iff_of_false (not_strips_of_none none) fun strippable => by simpa using strippable.2 rfl rfl
        · exact iff_of_true (@strips_of_last _ _ [] first plain tail)
            ⟨nofun, fun _ last => absurd (Option.some_inj.mp last) tail⟩
      · rw [List.concat_eq_append] at plain ⊢
        by_cases tail : last = quote2
        · subst tail
          exact (strips_quoted plain).trans (by simp [Strippable, getLast?_quoted])
        · exact iff_of_true (@strips_of_last _ _ (first :: inner) last plain tail) ⟨nofun, by simp [tail, getLast?_quoted]⟩

end Stripping

/-- `strtrunc2` and `strtrunc` strip a text if and only if it is not a quote alone, there is nothing between its quotes, and
an empty text is not asked for the zero behind it. -/
theorem quotes_stripped_iff (text : Text) (quote1 quote2 : Char) (plain : textEnd ∉ text) :
    (Strips (strtrunc2 · quote1 quote2) quote1 quote2 text ↔ Strippable quote1 quote2 text) ∧
      (Strips (strtrunc · quote1) quote1 quote1 text ↔ Strippable quote1 quote1 text) :=
  ⟨strips_iff plain, strips_iff plain⟩

/-- The supported bands in brackets. -/
theorem quotes_stripped_bands :
    (Strips (strtrunc2 · '(' ')') '(' ')' "(1,2,3)".toList ↔ Strippable '(' ')' "(1,2,3)".toList) ∧
      (Strips (strtrunc · '(') '(' '(' "(1,2,3)".toList ↔ Strippable '(' '(' "(1,2,3)".toList) :=
  quotes_stripped_iff "(1,2,3)".toList '(' ')' (by decide)

/-- A quote alone is read as its own end, and the length of a network is zero. -/
theorem quote_alone_moved : strtrunc ['"', textEnd] '"' = none ∧
    ¬ Strips (strtrunc · '"') '"' '"' ['"'] ∧ ¬ Strips (strtrunc · '"') '"' '"' "\"26201\"".toList :=
  ⟨rfl, mt (strips_iff (by decide)).mp (by unfold Strippable; decide),
    mt (strips_iff (by decide)).mp (by unfold Strippable; decide)⟩

end CoapsClient.ShCmd
