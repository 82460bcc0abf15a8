import CoapsClient.Model.Settings.Provisioning

/-! # The identity in a text

What `appl_settings_expand_imei` leaves is described without its moves: the value cut to the buffer, with the identity
in the place of the first `${imei}`, cut so far that all of it fits. Of the identity is cut only what does not fit.
-/

namespace CoapsClient.ApplSettings

open Machine

/-- A text with its first occurrence of a part replaced. -/
def ReplacesFirst (text part other result : List UInt8) : Prop :=
  (¬ part <:+: text ∧ result = text) ∨
    ∃ front back, text = front ++ part ++ back ∧ (∀ earlier < front.length, ¬ part <+: text.drop earlier) ∧
      result = front ++ other ++ back

section Strstr

variable {text part : List UInt8}

theorem strstr_none (none : strstr text part = none) : ¬ part <:+: text := by
  rintro ⟨front, back, rfl⟩
  have inside : front.length ∈ List.range ((front ++ part ++ back).length + 1) := by
    rw [List.mem_range, List.length_append, List.length_append]
    omega
  have missing := List.find?_eq_none.mp none front.length inside
  simp at missing

/-- What is found is the first occurrence. -/
theorem strstr_some {cur : ℕ} (found : strstr text part = some cur) :
    ∃ front back, text = front ++ part ++ back ∧ front.length = cur ∧
      ∀ earlier < cur, ¬ part <+: text.drop earlier := by
  obtain ⟨start, _, first⟩ := List.find?_range_eq_some.mp found
  obtain ⟨back, rest⟩ := List.isPrefixOf_iff_prefix.mp start
  refine ⟨text.take cur, back, ?_, ?_, ?_⟩
  · rw [List.append_assoc, rest, List.take_append_drop]
  · have inside := strstr_le found
    rw [List.length_take]
    omega
  · intro earlier order isPrefix
    simpa [List.isPrefixOf_iff_prefix.mpr isPrefix] using first earlier order

end Strstr

/-- The moves put the identity between what is in front of the part and what is behind it. -/
private theorem replaced_bytes {size : ℕ} {text : CText size} {front back imei : List UInt8}
    (whole : text.string = front ++ imeiPart ++ back) (free : imei.length + text.string.length ≤ size + 6) :
    ∃ rest, (replaced imei text front.length).bytes = front ++ imei ++ back ++ 0 :: rest := by
  obtain ⟨tail, bytes⟩ := text.bytes_eq
  have part : imeiPart.length = 7 := rfl
  have length : text.string.length = front.length + 7 + back.length := by
    rw [whole, List.length_append, List.length_append, part]
  have shorter := text.string_length_lt
  have behind : text.bytes.drop (front.length + 7) = back ++ 0 :: tail := by
    rw [bytes, whole, List.append_assoc, List.append_assoc, List.drop_length_add_append, ← part, List.drop_left]
  have source : moved text front.length = back ++ [0] := by
    rw [moved, behind, length, show front.length + 7 + back.length - 6 - front.length = back.length + 1 by omega,
      List.take_length_add_append]
    rfl
  have ahead : text.bytes.take front.length = front := by
    rw [bytes, whole, List.append_assoc, List.append_assoc, List.take_left]
  have movedLength : (back ++ [0]).length = back.length + 1 := List.length_append ..
  have fits : front.length + imei.length + (back ++ [0]).length ≤ size := by omega
  refine ⟨text.bytes.drop (front.length + imei.length + (back ++ [0]).length), ?_⟩
  rw [replaced, source, Cells.store_bytes _ (by omega), Cells.store_bytes _ fits]
  have split : (text.bytes.take (front.length + imei.length)).length = front.length + imei.length := by
    rw [List.length_take, text.size_eq]
    omega
  rw [List.take_append_of_le_length (by rw [List.length_append, split]; omega),
    List.take_append_of_le_length (by omega), List.take_take, Nat.min_eq_left (by omega), ahead,
    List.append_assoc (text.bytes.take (front.length + imei.length)), List.drop_left' split]
  simp only [List.append_assoc, List.singleton_append]

/-- In a cleared buffer of every size the function leaves the value, cut to the buffer, with its first `${imei}`
replaced by the identity, of which is kept what fits behind the rest of the text. The result ends with a zero inside the
buffer and its length is returned; what lies in front of the buffer and behind it is not changed. -/
theorem imei_expanded (before behind value imei : List UInt8) {size : ℕ} (room : 0 < size) :
    let text := (cstring value).take (size - 1)
    let kept := (cstring imei).take (size - 1 - (text.length - imeiPart.length))
    ∃ result rest, ReplacesFirst text imeiPart kept result ∧ 0 ∉ result ∧ result.length + 1 + rest.length = size ∧
      applSettingsExpandImei imei (before ++ List.replicate size 0 ++ behind) before.length size value =
        (result.length, before ++ (result ++ 0 :: rest) ++ behind) := by
  intro text kept
  have part : imeiPart.length = 7 := rfl
  have noZero (bytes : List UInt8) : 0 ∉ cstring bytes := fun zero => cstring_nonzero 0 zero rfl
  have string : (CText.load size (cstring value) room).string = text := by
    rw [CText.string_load]
    exact cstring_eq fun zero => noZero value (List.mem_of_mem_take zero)
  have shorter := (CText.load size (cstring value) room).string_length_lt
  rw [← Cells.zero_bytes, applSettingsExpandImei_eq before behind imei value room]
  cases found : strstr text imeiPart with
  | none =>
    obtain ⟨same, length⟩ := @expandImei_none (cstring imei) _ _ room (string ▸ found)
    obtain ⟨rest, bytes⟩ := (CText.load size (cstring value) room).bytes_eq
    rw [string] at bytes length
    refine ⟨text, rest, .inl ⟨strstr_none found, rfl⟩, ?_, ?_, ?_⟩
    · exact fun zero => noZero value (List.mem_of_mem_take zero)
    · have := (CText.load size (cstring value) room).size_eq
      rw [bytes, List.length_append, List.length_cons] at this
      omega
    · rw [same, length, bytes]
  | some cur =>
    obtain ⟨front, back, whole, rfl, first⟩ := strstr_some found
    obtain ⟨same, length⟩ := @expandImei_some (cstring imei) _ _ room _ (string ▸ found)
    rw [string] at same length shorter
    have counts : text.length = front.length + 7 + back.length := by
      rw [whole, List.length_append, List.length_append, part]
    have keptEq : (cstring imei).take (size - text.length + 6) = kept := by
      simp only [kept, part]
      congr 1
      omega
    have fits : kept.length + text.length ≤ size + 6 := by
      rw [← keptEq, List.length_take]
      omega
    obtain ⟨rest, bytes⟩ := @replaced_bytes _ _ _ _ kept (string.trans whole) (string ▸ fits)
    rw [keptEq] at same length
    have size_eq := (expandImei (cstring imei) size room (cstring value)).text.size_eq
    refine ⟨front ++ kept ++ back, rest, .inr ⟨front, back, whole, first, rfl⟩, ?_, ?_, ?_⟩
    · intro zero
      have textZero : 0 ∉ front ++ imeiPart ++ back := whole ▸ fun zero => noZero value (List.mem_of_mem_take zero)
      simp only [List.mem_append, not_or] at textZero
      rcases List.mem_append.mp zero with zero | zero
      · rcases List.mem_append.mp zero with zero | zero
        · exact textZero.1.1 zero
        · exact noZero imei (List.mem_of_mem_take zero)
      · exact textZero.2 zero
    · rw [same, bytes, List.length_append, List.length_cons] at size_eq
      omega
    · rw [same, length, bytes]
      refine Prod.ext ?_ rfl
      simp only [List.length_append]
      omega

/-- A query with the identity. -/
def imeiQuery : List UInt8 := chars "id=" ++ imeiPart ++ chars "&x"

/-- An identity that does not fit is cut, and the text behind it is kept. -/
theorem long_imei_cut :
    ∃ result rest, ReplacesFirst imeiQuery imeiPart (chars "12345678") result ∧ 0 ∉ result ∧
      result.length + 1 + rest.length = 14 ∧
      applSettingsExpandImei (chars "123456789") ([7] ++ List.replicate 14 0 ++ [8]) 1 14 imeiQuery =
        (result.length, [7] ++ (result ++ 0 :: rest) ++ [8]) := by
  have text : (cstring imeiQuery).take (14 - 1) = imeiQuery := by decide
  have kept : (cstring (chars "123456789")).take (14 - 1 - (imeiQuery.length - imeiPart.length)) =
      chars "12345678" := by decide
  have expanded := imei_expanded [7] [8] imeiQuery (chars "123456789") (show 0 < 14 by decide)
  dsimp only at expanded
  rw [text, kept] at expanded
  exact expanded

end CoapsClient.ApplSettings
