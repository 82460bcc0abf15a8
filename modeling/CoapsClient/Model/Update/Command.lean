import CoapsClient.Model.Update.Client
import Mathlib.Algebra.Group.Nat.Defs

/-! # The text of a `fota` command

`appl_update_coap_cmd` splits its text into the command and a version, `appl_update_coap_normalize`
takes the version out of its quotes. A version that fills its buffer has no terminating zero, and the
code then reads on behind the buffer; what stands there is `behind`.

The loop of `appl_update_coap_normalize` over the memory it writes to. The text is copied up to its end,
to the terminator, or until the buffer is full, and the function looks at the next character only. So a
token that fills its buffer is accepted, and no zero follows it: the string that starts in the buffer
goes on with what stands behind it.
-/

namespace CoapsClient.ApplUpdate

open ShCmd (Text stricmp parseNextText)

/-- `sizeof(cmd)`. -/
def cmdLen : ℕ := 10
/-- `sizeof(version)`. -/
def versionLen : ℕ := 32

/-- The double and the single quote. -/
def quotes : List Char := [Char.ofNat 0x22, Char.ofNat 0x27]

/-- The token of a resource: without the spaces before it, and without quotes. -/
def resourceToken (resource : Text) : Text :=
  match resource.dropWhile (· = ' ') with
  | [] => []
  | term :: cur =>
      if term ∈ quotes then cur.takeWhile (· ≠ term) else (term :: cur).takeWhile (· ≠ ' ')

/-- `appl_update_coap_normalize`: the bytes left in the buffer, without the zeros that fill it up. -/
def normalize (resource : Text) (len : ℕ) : Except Int Text :=
  if len < (resourceToken resource).length then .error enomem else .ok (resourceToken resource)

/-- The text that starts in a buffer. -/
def bufferText (bytes : Text) (len : ℕ) (behind : Text) : Text :=
  if bytes.length < len then bytes else bytes ++ behind

/-- The comparisons of the first word. -/
def cmdOf (cmd : Text) : Cmd :=
  if stricmp cmd "download".toList = 0 then .download
  else if stricmp cmd "update".toList = 0 then .update
  else if stricmp cmd "apply".toList = 0 then .apply
  else if stricmp cmd "cancel".toList = 0 then .cancel
  else .other

/-- The command of a text. -/
def textCmd (config : Text) : Cmd := cmdOf (parseNextText config ' ' cmdLen).1

/-- What `appl_update_coap_normalize` makes of the rest of a text. -/
def textVersion (config : Text) : Except Int Text :=
  normalize (parseNextText config ' ' cmdLen).2 versionLen

/-- `appl_update_coap_cmd`. -/
def applUpdateCoapCmd (imageVersion behind : Text) (env : Env) (client : Client) (config : Text) :
    Client × Int :=
  if env.reboots then (client, eshutdown)
  else match textVersion config with
    | .error rc => (client, rc)
    | .ok version =>
        coapCmd imageVersion env client (textCmd config) (bufferText version versionLen behind)

/-- The text names a download; `true` for one that is applied when it is ready. -/
def startsDownload (config : Text) : Option Bool :=
  match textCmd config with
  | .download => some false
  | .update => some true
  | _ => none

example : textCmd "Update \"1.2.3+4\"".toList = .update ∧
    (textVersion "Update \"1.2.3+4\"".toList).toOption = some "1.2.3+4".toList := by decide

/-- A character for every address. -/
abbrev Chars := ℕ → Char

/-- The terminating zero. -/
def nul : Char := Char.ofNat 0

/-- `memset(normalized, 0, len)`. -/
def cleared (memory : Chars) (base len : ℕ) : Chars := fun address =>
  if base ≤ address ∧ address < base + len then nul else memory address

/-- `while (l > 0 && *cur && *cur != term)`: the memory and the rest of the text. -/
def copyToken (term : Char) : ℕ → Text → ℕ → Chars → Chars × Text
  | 0, cur, _, memory => (memory, cur)
  | _ + 1, [], _, memory => (memory, [])
  | l + 1, char :: cur, normalized, memory =>
      if char = term then (memory, char :: cur)
      else copyToken term l cur (normalized + 1) (Function.update memory normalized char)

/-- The terminator of a resource behind its spaces, and where the token starts. -/
def tokenStart : Text → Char × Text
  | [] => (' ', [])
  | term :: cur => if term ∈ quotes then (term, cur) else (' ', term :: cur)

/-- `*cur && *cur != term`. -/
def goesOn (term : Char) : Text → Bool
  | [] => false
  | char :: _ => char ≠ term

/-- `appl_update_coap_normalize` for a buffer at `base`. The length goes into an `int`, and a negative
one copies nothing. -/
def applUpdateCoapNormalize (memory : Chars) (base : ℕ) (resource : Text) (len : UInt32) : Chars × Int :=
  let (term, cur) := tokenStart (resource.dropWhile (· = ' '))
  let (memory, cur) := copyToken term (signed len.toNat).toNat cur base (cleared memory base len.toNat)
  (memory, if goesOn term cur then enomem else 0)

/-- The memory with a text in it. -/
def stored (memory : Chars) (base : ℕ) (text : Text) : Chars := fun address =>
  if base ≤ address ∧ address < base + text.length then text.getD (address - base) nul else memory address

/-- The string at an address. -/
def Reads (memory : Chars) (base : ℕ) (text : Text) : Prop :=
  (∀ index, (bound : index < text.length) → memory (base + index) = text[index]) ∧
    memory (base + text.length) = nul

variable {memory : Chars} {base : ℕ} {text : Text} {term : Char}

private theorem stored_nil : stored memory base [] = memory := by
  funext address
  exact if_neg (by simp only [List.length_nil]; omega)

private theorem stored_cons (char : Char) :
    stored (Function.update memory base char) (base + 1) text = stored memory base (char :: text) := by
  funext address
  simp only [stored, List.length_cons]
  rcases Nat.lt_trichotomy address base with before | rfl | behind
  · rw [if_neg (by omega), if_neg (by omega), Function.update_of_ne (by omega)]
  · rw [if_neg (by omega), if_pos (by omega), Function.update_self, Nat.sub_self, List.getD_cons_zero]
  · obtain ⟨offset, rfl⟩ : ∃ offset, address = base + (offset + 1) := ⟨address - base - 1, by omega⟩
    rw [Function.update_of_ne (by omega), show base + (offset + 1) - (base + 1) = offset by omega,
      show base + (offset + 1) - base = offset + 1 by omega, List.getD_cons_succ]
    exact if_congr (by omega) rfl rfl

theorem stored_of_mem {index : ℕ} (bound : index < text.length) :
    stored memory base text (base + index) = text[index] := by
  rw [stored, if_pos (by omega), Nat.add_sub_cancel_left, List.getD_eq_getElem?_getD,
    List.getElem?_eq_getElem bound, Option.getD_some]

theorem stored_of_not_mem {address : ℕ} (outside : address < base ∨ base + text.length ≤ address) :
    stored memory base text address = memory address :=
  if_neg (by omega)

theorem cleared_of_mem {len index : ℕ} (bound : index < len) : cleared memory base len (base + index) = nul :=
  if_pos (by omega)

theorem cleared_of_not_mem {len address : ℕ} (outside : address < base ∨ base + len ≤ address) :
    cleared memory base len address = memory address :=
  if_neg (by omega)

/-- The loop copies the token, as far as it fits. -/
private theorem copyToken_spec (term : Char) (l : ℕ) (cur : Text) (base : ℕ) (memory : Chars) :
    copyToken term l cur base memory =
      (stored memory base ((cur.takeWhile (· ≠ term)).take l),
        cur.drop ((cur.takeWhile (· ≠ term)).take l).length) := by
  induction l generalizing cur base memory with
  | zero => simp [copyToken, stored_nil]
  | succ l ih =>
    cases cur with
    | nil => simp [copyToken, stored_nil]
    | cons char cur =>
      by_cases same : char = term
      · simp [copyToken, same, stored_nil]
      · rw [copyToken, if_neg same, ih, stored_cons, List.takeWhile_cons_of_pos (by simpa using same),
          List.take_succ_cons, List.length_cons, List.drop_succ_cons]

/-- Behind the copied characters the token goes on exactly if it is longer. -/
private theorem goesOn_drop_take (term : Char) (l : ℕ) (cur : Text) :
    goesOn term (cur.drop ((cur.takeWhile (· ≠ term)).take l).length) =
      decide (l < (cur.takeWhile (· ≠ term)).length) := by
  induction l generalizing cur with
  | zero =>
    cases cur with
    | nil => rfl
    | cons char cur => by_cases same : char = term <;> simp [goesOn, same]
  | succ l ih =>
    cases cur with
    | nil => rfl
    | cons char cur =>
      by_cases same : char = term
      · simp [goesOn, same]
      · rw [List.takeWhile_cons_of_pos (by simpa using same), List.take_succ_cons, List.length_cons,
          List.drop_succ_cons, ih, List.length_cons]
        simp only [Nat.add_lt_add_iff_right]

/-- What stands up to the terminator is the token of the resource. -/
private theorem tokenStart_takeWhile (resource : Text) :
    (tokenStart (resource.dropWhile (· = ' '))).2.takeWhile
      (· ≠ (tokenStart (resource.dropWhile (· = ' '))).1) = resourceToken resource := by
  simp only [resourceToken]
  cases resource.dropWhile (· = ' ') with
  | nil => rfl
  | cons term cur =>
    simp only [tokenStart]
    split <;> rfl

/-- The token is stored as far as it fits into a cleared buffer, and a longer one is an error. -/
theorem applUpdateCoapNormalize_eq (memory : Chars) (base : ℕ) (resource : Text) (len : UInt32) :
    applUpdateCoapNormalize memory base resource len =
      (stored (cleared memory base len.toNat) base
          ((resourceToken resource).take (signed len.toNat).toNat),
        if (signed len.toNat).toNat < (resourceToken resource).length then enomem else 0) := by
  have rest := goesOn_drop_take (tokenStart (resource.dropWhile (· = ' '))).1 (signed len.toNat).toNat
    (tokenStart (resource.dropWhile (· = ' '))).2
  rw [tokenStart_takeWhile] at rest
  simp only [applUpdateCoapNormalize, copyToken_spec, tokenStart_takeWhile, rest, decide_eq_true_eq]

theorem signed_toNat_le (len : ℕ) (word : len < 2 ^ 32) : (signed len).toNat ≤ len := by
  simp only [signed]
  split <;> omega

theorem signed_toNat_of_lt {len : ℕ} (bound : len < 2 ^ 31) : (signed len).toNat = len := by
  simp only [signed, if_pos (show len < 0x80000000 by omega), Int.toNat_natCast]

theorem signed_toNat_of_le {len : ℕ} (bound : 2 ^ 31 ≤ len) (word : len < 2 ^ 32) :
    (signed len).toNat = 0 := by
  simp only [signed, if_neg (show ¬ len < 0x80000000 by omega)]
  omega

/-- An accepted resource leaves the string of its token, which goes on behind a full buffer. -/
theorem applUpdateCoapNormalize_reads {resource behind version : Text} {len : UInt32}
    (bound : len.toNat < 2 ^ 31) (accepted : normalize resource len.toNat = .ok version)
    (follows : Reads memory (base + len.toNat) behind) :
    (applUpdateCoapNormalize memory base resource len).2 = 0 ∧
      Reads (applUpdateCoapNormalize memory base resource len).1 base
        (bufferText version len.toNat behind) := by
  simp only [normalize] at accepted
  split at accepted
  · contradiction
  · next fits =>
    obtain rfl := Except.ok.inj accepted
    rw [applUpdateCoapNormalize_eq, signed_toNat_of_lt bound, List.take_of_length_le (by omega)]
    refine ⟨if_neg fits, ?_⟩
    simp only [bufferText]
    split
    · next short =>
      refine ⟨fun index inside => stored_of_mem inside, ?_⟩
      rw [stored_of_not_mem (by omega), cleared_of_mem short]
    · next full =>
      have exact : (resourceToken resource).length = len.toNat := by omega
      refine ⟨?_, ?_⟩
      · intro index inside
        rw [List.getElem_append]
        split
        · next inToken => exact stored_of_mem inToken
        · next beyond =>
          rw [List.length_append] at inside
          rw [stored_of_not_mem (by omega), cleared_of_not_mem (by omega),
            ← follows.1 (index - (resourceToken resource).length) (by omega)]
          congr 1
          omega
      · rw [List.length_append, stored_of_not_mem (by omega), cleared_of_not_mem (by omega), ← follows.2]
        congr 1
        omega

end CoapsClient.ApplUpdate
