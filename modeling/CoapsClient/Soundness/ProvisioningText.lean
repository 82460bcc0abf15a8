import CoapsClient.Model.Settings.Provisioning

/-! # The lines of a provisioning

Every part but one is appended at the running index. The line of the domain is written to the start of the buffer,
over the line with the name of the device, and the place where it belongs is left as it was. As its zero stays in the
text, a provisioning with a domain and a key pair is never the one that was meant; all others are.
-/

namespace CoapsClient.ApplSettings

open Machine

variable {config : Config}

/-- The lines of a provisioning. -/
def provisioningLines (prov : Provisioning) (settings : Settings config) (shProtected cmd : Bool) : List (List UInt8) :=
  [idLine prov settings] ++
    (if settings.psk.complete ∧ ¬ (cmd ∧ shProtected) then
      [pskHead settings ++ prov.base64Encode (settings.psk.key.bytes.take settings.psk.keyLength)] else []) ++
    (if keyPair settings then
      (if provisioningDomain prov ≠ [] then [domainLine prov] else []) ++
        [chars ".rpk=" ++ prov.base64Encode (publicCert settings),
          sigHead prov ++ prov.base64Encode (signatureElem prov settings)] else [])

/-- Lines with a newline behind each of them. -/
def withNewlines (lines : List (List UInt8)) : List UInt8 := lines.flatMap (· ++ [10])

/-- The buffer holds the lines, and their length is returned; behind the protection of the shell nothing depends on
the PSK credentials. -/
structure ProvidesLines (prov : Provisioning) (settings : Settings config) (shProtected cmd : Bool)
    (buffer : List UInt8) : Prop where
  text : (getProvisioningInternal prov settings shProtected cmd buffer).text =
    withNewlines (provisioningLines prov settings shProtected cmd)
  length : (getProvisioningInternal prov settings shProtected cmd buffer).index =
    (withNewlines (provisioningLines prov settings shProtected cmd)).length
  hidden : cmd = true → shProtected = true → ∀ psk,
    getProvisioningInternal prov { settings with psk } shProtected cmd buffer =
      getProvisioningInternal prov settings shProtected cmd buffer

section Parts

variable (prov : Provisioning) (settings : Settings config) {out : Output} {text : List UInt8}

/-- What the part of the PSK credentials appends. -/
def pskText (shProt : Bool) : List UInt8 :=
  if settings.psk.complete ∧ ¬ shProt then
    pskHead settings ++ prov.base64Encode (settings.psk.key.bytes.take settings.psk.keyLength) ++ [10]
  else []

/-- What the part of the keys appends. -/
def keyText : List UInt8 :=
  chars ".rpk=" ++ prov.base64Encode (publicCert settings) ++ [10] ++
    (sigHead prov ++ prov.base64Encode (signatureElem prov settings) ++ [10])

private theorem pskPart_appends {len : ℕ} (shProt : Bool) (size : out.buffer.length = len)
    (fits : out.index + (pskText prov settings shProt).length ≤ len) :
    Appends out (pskText prov settings shProt) (pskPart prov settings shProt len out) := by
  simp only [pskPart, pskText] at fits ⊢
  cases complete : settings.psk.complete with
  | false => exact .refl out
  | true =>
    cases shProt with
    | true => exact .refl out
    | false =>
      have open_shell : settings.psk.complete = true ∧ ¬ false = true := ⟨complete, Bool.false_ne_true⟩
      rw [if_pos open_shell] at fits
      refine (Output.line_appends size ?_).2
      simp only [List.length_append, List.length_singleton] at fits
      omega

private theorem keyPart_appends {len : ℕ} (size : out.buffer.length = len)
    (fits : out.index + (keyText prov settings).length ≤ len) :
    Appends out (keyText prov settings) (keyPart prov settings len out) := by
  simp only [keyText, List.length_append, List.length_singleton] at fits
  obtain ⟨done, rpk⟩ := @Output.line_appends _ _ (chars ".rpk=") (prov.base64Encode (publicCert settings)) size (by omega)
  simp only [keyPart, done, if_true]
  refine rpk.trans (Output.line_appends (rpk.length.trans size) ?_).2
  rw [rpk.index]
  simp only [List.length_append, List.length_singleton]
  omega

/-- The line of the domain leaves its zero in the text. -/
private theorem domainPart_zero {len : ℕ} (size : out.buffer.length = len) (started : 0 < out.index)
    (domain : provisioningDomain prov ≠ []) (fits : out.index + (domainLine prov).length + 1 ≤ len) :
    (domainPart prov len out).buffer.length = len ∧
      (domainPart prov len out).index = out.index + (domainLine prov).length + 1 ∧
      0 ∈ (domainPart prov len out).text := by
  have whole : (domainLine prov).take (len - 1) = domainLine prov := List.take_of_length_le (by omega)
  have written : snprintf out.buffer 0 len (domainLine prov) =
      domainLine prov ++ 0 :: out.buffer.drop ((domainLine prov).length + 1) := by
    rw [snprintf, if_pos (by omega), whole, storeAt, List.length_append, List.length_singleton, Nat.zero_add]
    simp only [List.take_zero, List.nil_append, List.append_assoc, List.singleton_append]
  set line : Output := { buffer := snprintf out.buffer 0 len (domainLine prov)
                         index := out.index + (domainLine prov).length } with lineEq
  have length : line.buffer.length = len := by
    rw [lineEq]
    simp only [written, List.length_append, List.length_cons, List.length_drop]
    omega
  have appended : Appends line [10] line.newline := Output.newline_appends (by rw [length, lineEq]; omega)
  have part : domainPart prov len out = line.newline := if_pos domain
  rw [part]
  refine ⟨appended.length.trans length, appended.index, ?_⟩
  rw [appended.text]
  refine List.mem_append_left _ ?_
  obtain ⟨before, index⟩ : ∃ before, out.index = before + 1 := ⟨out.index - 1, by omega⟩
  rw [lineEq]
  simp only [Output.text, written, index]
  rw [Nat.add_comm, List.take_length_add_append, List.take_succ_cons]
  exact List.mem_append_right _ (List.mem_cons_self ..)

end Parts

section Whole

variable (prov : Provisioning) (settings : Settings config) (shProtected cmd : Bool) (buffer : List UInt8)

/-- The lines, part by part. -/
private theorem withNewlines_lines :
    withNewlines (provisioningLines prov settings shProtected cmd) =
      idLine prov settings ++ [10] ++ pskText prov settings (cmd && shProtected) ++
        (if keyPair settings then
          (if provisioningDomain prov ≠ [] then domainLine prov ++ [10] else []) ++ keyText prov settings else []) := by
  have psk : withNewlines (if settings.psk.complete ∧ ¬ (cmd ∧ shProtected) then
      [pskHead settings ++ prov.base64Encode (settings.psk.key.bytes.take settings.psk.keyLength)] else []) =
      pskText prov settings (cmd && shProtected) := by
    simp only [pskText, Bool.and_eq_true]
    split <;> simp [withNewlines]
  have domain : withNewlines (if provisioningDomain prov ≠ [] then [domainLine prov] else []) =
      if provisioningDomain prov ≠ [] then domainLine prov ++ [10] else [] := by
    split <;> simp [withNewlines]
  have keys : withNewlines (if keyPair settings then
      (if provisioningDomain prov ≠ [] then [domainLine prov] else []) ++
        [chars ".rpk=" ++ prov.base64Encode (publicCert settings),
          sigHead prov ++ prov.base64Encode (signatureElem prov settings)] else []) =
      if keyPair settings then
        (if provisioningDomain prov ≠ [] then domainLine prov ++ [10] else []) ++ keyText prov settings else [] := by
    split
    · rw [withNewlines, List.flatMap_append, ← withNewlines, domain]
      simp [keyText]
    · rfl
  rw [← psk, ← keys, provisioningLines, withNewlines, List.flatMap_append, List.flatMap_append]
  simp [withNewlines]

/-- There is no zero in the lines. -/
private theorem lines_nonzero : 0 ∉ withNewlines (provisioningLines prov settings shProtected cmd) := by
  have name : 0 ∉ settings.deviceId.string := fun zero => cstring_nonzero 0 zero rfl
  have identity : 0 ∉ cstring settings.psk.id.bytes := fun zero => cstring_nonzero 0 zero rfl
  have group : 0 ∉ prov.group.getD (chars "Auto") := by
    cases found : prov.group with
    | none => decide
    | some text => exact prov.group_nonzero text found
  have domain : 0 ∉ provisioningDomain prov := by
    simp only [provisioningDomain]
    split
    · exact List.not_mem_nil
    · cases found : prov.domain with
      | none => exact List.not_mem_nil
      | some text => exact prov.domain_nonzero text found
  have head : 0 ∉ sigHead prov := by
    simp only [sigHead]
    split <;> decide
  have words : 0 ∉ chars "=" ∧ 0 ∉ chars ".psk='" ∧ 0 ∉ chars "'," ∧ 0 ∉ chars ".dom=" ∧ 0 ∉ chars ".rpk=" := by decide
  rw [withNewlines_lines]
  simp only [pskText, keyText, idLine, pskHead, domainLine]
  split <;> split <;> (try split) <;>
    simp [name, identity, group, domain, head, words, prov.base64Encode_nonzero]

/-- With the shell protected, the PSK credentials are not looked at. -/
private theorem psk_hidden (command : cmd = true) (isProtected : shProtected = true) (psk : Psk config) :
    getProvisioningInternal prov { settings with psk } shProtected cmd buffer =
      getProvisioningInternal prov settings shProtected cmd buffer := by
  subst command isProtected
  simp only [getProvisioningInternal, pskPart, Bool.and_self, if_true, ite_self]
  rfl

variable {prov settings shProtected cmd buffer}

/-- The parts in front of the keys. -/
private theorem front_appends
    (fits : (idLine prov settings ++ [10] ++ pskText prov settings (cmd && shProtected)).length ≤ buffer.length) :
    Appends ⟨buffer, 0⟩ (idLine prov settings ++ [10] ++ pskText prov settings (cmd && shProtected))
      (pskPart prov settings (cmd && shProtected) buffer.length
        ((⟨buffer, 0⟩ : Output).print buffer.length (idLine prov settings)).newline) := by
  simp only [List.length_append, List.length_singleton] at fits
  have printed : Appends ⟨buffer, 0⟩ (idLine prov settings)
      ((⟨buffer, 0⟩ : Output).print buffer.length (idLine prov settings)) :=
    Output.print_appends rfl (by simp only; omega)
  have first := printed.trans (Output.newline_appends (by rw [printed.index, printed.length]; simp only; omega))
  refine first.trans (pskPart_appends prov settings (cmd && shProtected) first.length ?_)
  rw [first.index]
  simp only [List.length_append, List.length_singleton]
  omega

/-- In a buffer with room, the lines are provided exactly when no line with a domain is among them. -/
theorem provides_lines_iff
    (fits : (withNewlines (provisioningLines prov settings shProtected cmd)).length ≤ buffer.length) :
    ProvidesLines prov settings shProtected cmd buffer ↔
      ¬ (keyPair settings = true ∧ provisioningDomain prov ≠ []) := by
  have lines := withNewlines_lines prov settings shProtected cmd
  have room := fits
  rw [lines, List.length_append] at room
  have front := @front_appends _ prov settings shProtected cmd buffer (by omega)
  set out := pskPart prov settings (cmd && shProtected) buffer.length
    ((⟨buffer, 0⟩ : Output).print buffer.length (idLine prov settings)).newline with outEq
  have empty : (⟨buffer, 0⟩ : Output).text = [] := rfl
  have size : out.buffer.length = buffer.length := front.length
  have hidden := psk_hidden prov settings shProtected cmd buffer
  have start : out.index = (idLine prov settings ++ [10] ++ pskText prov settings (cmd && shProtected)).length := by
    rw [front.index, Nat.zero_add]
  cases pair : keyPair settings with
  | false =>
    have left : getProvisioningInternal prov settings shProtected cmd buffer = out := by
      simp only [getProvisioningInternal, pair]
      rfl
    refine iff_of_true ⟨?_, ?_, hidden⟩ (fun both => Bool.false_ne_true both.1)
    · rw [left, lines, front.text, empty, pair]
      simp
    · rw [left, lines, start, pair]
      simp
  | true =>
    have left : getProvisioningInternal prov settings shProtected cmd buffer =
        keyPart prov settings buffer.length (domainPart prov buffer.length out) := by
      simp only [getProvisioningInternal, pair]
      rfl
    simp only [pair, if_true, List.length_append] at room
    by_cases domain : provisioningDomain prov ≠ []
    · -- The text has the zero behind the misplaced domain, the lines have none.
      rw [if_pos domain, List.length_append, List.length_singleton] at room
      obtain ⟨length, index, zero⟩ := domainPart_zero prov size (by rw [start]; simp) domain
        (by rw [start]; simp only [List.length_append, List.length_singleton]; omega)
      have keys := keyPart_appends prov settings length
        (by rw [index, start]; simp only [List.length_append, List.length_singleton]; omega)
      refine iff_of_false (fun provides => ?_) (fun none => none ⟨rfl, domain⟩)
      have found : 0 ∈ withNewlines (provisioningLines prov settings shProtected cmd) := by
        rw [← provides.text, left, keys.text]
        exact List.mem_append_left _ zero
      exact lines_nonzero prov settings shProtected cmd found
    · have part : domainPart prov buffer.length out = out := if_neg domain
      have keys := keyPart_appends prov settings size (by rw [start]; simp only [List.length_append]; omega)
      rw [part] at left
      have whole := front.trans keys
      refine iff_of_true ⟨?_, ?_, hidden⟩ (fun both => domain both.2)
      · rw [left, lines, whole.text, empty, pair, if_neg domain]
        simp
      · rw [left, lines, whole.index, pair, if_neg domain]
        simp

end Whole

/-- A character of base64. -/
def base64Char (value : ℕ) : UInt8 :=
  (chars "ABCDEFGHIJKLMNOPQRSTUVWXYZabcdefghijklmnopqrstuvwxyz0123456789+/").getD value 61

/-- `base64_encode`. -/
def base64Text : List UInt8 → List UInt8
  | first :: second :: third :: rest =>
    base64Char (first.toNat / 4) :: base64Char (first.toNat % 4 * 16 + second.toNat / 16) ::
      base64Char (second.toNat % 16 * 4 + third.toNat / 64) :: base64Char (third.toNat % 64) :: base64Text rest
  | [first, second] =>
    [base64Char (first.toNat / 4), base64Char (first.toNat % 4 * 16 + second.toNat / 16),
      base64Char (second.toNat % 16 * 4), 61]
  | [first] => [base64Char (first.toNat / 4), base64Char (first.toNat % 4 * 16), 61, 61]
  | [] => []

private theorem base64Char_nonzero (value : ℕ) : 0 ≠ base64Char value := by
  have nonzero : 0 ∉ chars "ABCDEFGHIJKLMNOPQRSTUVWXYZabcdefghijklmnopqrstuvwxyz0123456789+/" := by decide
  rw [base64Char, List.getD_eq_getElem?_getD]
  cases found : (chars "ABCDEFGHIJKLMNOPQRSTUVWXYZabcdefghijklmnopqrstuvwxyz0123456789+/")[value]? with
  | none => decide
  | some char => exact fun zero => nonzero (zero ▸ List.mem_of_getElem? found)

private theorem base64Text_nonzero (data : List UInt8) : 0 ∉ base64Text data := by
  fun_induction base64Text data with
  | case1 first second third rest ih => simp [base64Char_nonzero, ih]
  | case2 first second => simp [base64Char_nonzero]
  | case3 first => simp [base64Char_nonzero]
  | case4 => exact List.not_mem_nil

/-- The provisioning of a group; its hash and its signatures are empty. -/
def demoProvisioning : Provisioning where
  group := some (chars "Demo")
  group_nonzero := by
    rintro text ⟨⟩
    decide
  domain := none
  domain_nonzero := nofun
  base64Encode := base64Text
  base64Encode_nonzero := base64Text_nonzero
  sha256 := fun _ => []
  createSigHash := fun _ _ => (0, 0)
  asn1Integer := fun _ => []

/-- The same, with a domain. -/
def domainProvisioning : Provisioning :=
  { demoProvisioning with
    domain := some (chars "d")
    domain_nonzero := by
      rintro text ⟨⟩
      decide }

/-- A device with PSK credentials. -/
def pskDevice : Settings (tinydtls fun _ => none) :=
  { boot (tinydtls fun _ => none) with
    deviceId := .load _ (chars "cali.1") (Config.identityPlace _)
    psk := ((Psk.none _).setId (chars "cali")).setKey (chars "secret") }

/-- A device with a key pair. -/
def keyDevice : Settings (tinydtls fun _ => none) :=
  { pskDevice with ecdsaPrivKey := .load _ [1], ecdsaPubKey := .load _ [2] }

/-- A device with PSK credentials provides two lines. -/
theorem psk_lines_provided :
    ProvidesLines demoProvisioning pskDevice false false (List.replicate 64 7) := by
  refine (provides_lines_iff ?_).mpr ?_
  · decide +kernel
  · have none : keyPair pskDevice = false := by decide +kernel
    exact fun both => Bool.false_ne_true (none.symm.trans both.1)

/-- With a domain and a key pair, the name of the device is overwritten. -/
theorem domain_overwrites :
    let out := getProvisioningInternal domainProvisioning keyDevice false false (List.replicate 350 7)
    out.buffer.take 12 = chars ".dom=d" ++ [0] ++ chars "Demo" ++ [10] ∧
      out.text ≠ withNewlines (provisioningLines domainProvisioning keyDevice false false) := by
  decide +kernel

end CoapsClient.ApplSettings
