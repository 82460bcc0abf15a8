import CoapsClient.Model.Shell.Lookup
import CoapsClient.Model.Update.Command
import CoapsClient.Model.Update.Steps
import CoapsClient.Soundness.DownloadIntegrity
import Mathlib.Data.Nat.Digits.Defs

/-! # `fota apply`

`appl_update_coap_verify_version` returns zero for the right version, and the branch for `apply` takes
that for the failure. So a command that gets as far as this check is answered the wrong way round: the
right image is refused, and any other one is booted.
-/

namespace CoapsClient.ApplUpdate

open Machine ShCmd

variable {imageVersion behind : Text} {env : Env} {client : Client} {config : Text}

/-- The version a text names. -/
def namedVersion (config : Text) : Text := resourceToken (parseNextText config ' ' cmdLen).2

/-- The device may reboot into the image that was downloaded. -/
structure CanApply (env : Env) (client : Client) (config : Text) : Prop where
  runs : env.reboots = false
  path : client.resourcePath ≠ []
  named : stricmp (namedVersion config) client.resourcePath = 0
  ready : client.downloadReady = true
  header : ∃ version, getPendingVersion client.dfu env.pending env.header = (0, version) ∧
    stricmp client.resourcePath version = 0

/-- The reboot is requested exactly if it may be, and anything else is an error without a reboot. -/
structure AppliesExactly (imageVersion behind : Text) (env : Env) (client : Client) (config : Text) : Prop where
  reboots : (applUpdateCoapCmd imageVersion behind env client config).1.rebootCmds = client.rebootCmds + 1 ↔
    CanApply env client config
  refuses : ¬ CanApply env client config →
    (applUpdateCoapCmd imageVersion behind env client config).2 < 0 ∧
      (applUpdateCoapCmd imageVersion behind env client config).1.rebootCmds = client.rebootCmds

/-- The command gets as far as the check of the image header. -/
structure ReachesHeader (behind : Text) (env : Env) (client : Client) (config : Text) : Prop where
  runs : env.reboots = false
  path : client.resourcePath ≠ []
  fits : (namedVersion config).length ≤ versionLen
  named : stricmp (bufferText (namedVersion config) versionLen behind) client.resourcePath = 0
  ready : client.downloadReady = true

/-- The fields of an image header are two bytes, a half word and a word. -/
structure Header.Fits (header : Header) : Prop where
  major : header.major < 2 ^ 8
  minor : header.minor < 2 ^ 8
  revision : header.revision < 2 ^ 16
  buildNum : header.buildNum < 2 ^ 32

/-- What starts with a string without zeros and compares as equal to a second and that to a third is at
least as long as the third. -/
private theorem length_le_of_stricmp {left rest middle right : Text} (string : nul ∉ left)
    (first : stricmp (left ++ rest) middle = 0) (second : stricmp middle right = 0) :
    left.length ≤ right.length := by
  induction left generalizing middle right with
  | nil => exact Nat.zero_le _
  | cons char left ih =>
    have notNul : char.toLower.toNat ≠ 0 := ShCmd.toLower_toNat_ne_zero fun same =>
      string (List.mem_cons.mpr (.inl same.symm))
    have tail : nul ∉ left := fun found => string (List.mem_cons_of_mem char found)
    cases middle with
    | nil =>
      simp only [List.cons_append, stricmp] at first
      exact absurd (Int.natCast_eq_zero.mp first) notNul
    | cons cur middle =>
      obtain ⟨equal, first⟩ := stricmp_cons first
      cases right with
      | nil =>
        simp only [stricmp] at second
        exact absurd (Int.natCast_eq_zero.mp second) (equal ▸ notNul)
      | cons last right =>
        obtain ⟨_, second⟩ := stricmp_cons second
        exact Nat.succ_le_succ (ih tail first second)

private theorem length_toString_signed {value : ℕ} (word : value < 2 ^ 32) :
    (toString (signed value)).length ≤ 11 := by
  simp only [signed]
  split
  · next positive => exact (Nat.repr_length value 10 (by omega) (by omega)).trans (by omega)
  · next negative =>
    obtain ⟨offset, same⟩ : ∃ offset : ℕ, (value : Int) - 0x100000000 = Int.negSucc offset :=
      ⟨0x100000000 - value - 1, by omega⟩
    rw [same]
    have digits := Nat.repr_length (offset + 1) 10 (by omega) (by omega)
    show ("-" ++ (offset + 1).repr).length ≤ 11
    rw [String.length_append]
    exact (Nat.add_le_add_left digits _).trans (by decide)

theorem Header.Fits.version_length {header : Header} (fits : header.Fits) :
    header.version.length < versionLen := by
  have major := Nat.repr_length header.major 3 (by omega) (by have := fits.major; omega)
  have minor := Nat.repr_length header.minor 3 (by omega) (by have := fits.minor; omega)
  have revision := Nat.repr_length header.revision 5 (by omega) (by have := fits.revision; omega)
  have build := length_toString_signed fits.buildNum
  simp only [Header.version, String.length_toList, String.length_append, versionLen,
    show ".".length = 1 from rfl, show "+".length = 1 from rfl,
    show ∀ n : ℕ, toString n = n.repr from fun _ => rfl]
  omega

private theorem mem_of_mem_namedVersion {char : Char} (named : char ∈ namedVersion config) : char ∈ config := by
  have rest : char ∈ (parseNextText config ' ' cmdLen).2 := by
    simp only [namedVersion, resourceToken] at named
    refine (List.dropWhile_sublist (· = ' ')).subset ?_
    revert named
    cases (parseNextText config ' ' cmdLen).2.dropWhile (· = ' ') with
    | nil => exact id
    | cons term cur =>
      simp only
      split
      · exact fun named => List.mem_cons_of_mem term ((List.takeWhile_sublist _).subset named)
      · exact fun named => (List.takeWhile_sublist _).subset named
  have dropped := (List.dropWhile_sublist _).subset (List.mem_of_mem_tail rest)
  split at dropped
  · exact List.mem_of_mem_tail dropped
  · exact dropped

private theorem verifyVersion_eq_zero_iff :
    (verifyVersion env client).1 = 0 ↔
      ∃ version, getPendingVersion client.dfu env.pending env.header = (0, version) ∧
        stricmp client.resourcePath version = 0 := by
  have failed : einval ≠ 0 := by decide
  rcases read : getPendingVersion client.dfu env.pending env.header with ⟨err, version⟩
  simp only [verifyVersion, read]
  split
  · next ok =>
    by_cases same : stricmp client.resourcePath version = 0
    · simp [ok, same]
    · simp [ok, same, failed]
  · next notOk => simp [notOk]

/-- A version that was read is that of the header. -/
private theorem getPendingVersion_length {version : Text} (fits : env.header.Fits)
    (read : getPendingVersion client.dfu env.pending env.header = (0, version)) :
    version.length < versionLen := by
  have empty : ([] : Text).length < versionLen := by decide
  simp only [getPendingVersion] at read
  split_ifs at read
  · exact (Prod.mk.inj read).2 ▸ empty
  · exact (Prod.mk.inj read).2 ▸ empty
  · exact (Prod.mk.inj read).2 ▸ empty
  · exact (Prod.mk.inj read).2 ▸ fits.version_length
  · exact (Prod.mk.inj read).2 ▸ empty

/-- A command that stops before the image header is an error and changes nothing. -/
private theorem apply_of_not_reaches (imageVersion : Text) (isApply : textCmd config = .apply)
    (stops : ¬ ReachesHeader behind env client config) :
    (applUpdateCoapCmd imageVersion behind env client config).1 = client ∧
      (applUpdateCoapCmd imageVersion behind env client config).2 < 0 := by
  have invalid : einval < 0 := by decide
  have shutdown : eshutdown < 0 := by decide
  have noMemory : enomem < 0 := by decide
  simp only [applUpdateCoapCmd, textVersion, normalize]
  split
  · exact ⟨rfl, shutdown⟩
  · next runs =>
    split
    · next rc failed =>
      split at failed
      · exact ⟨rfl, Except.error.inj failed ▸ noMemory⟩
      · contradiction
    · next version read =>
      split at read
      · contradiction
      · next fits =>
        obtain rfl := Except.ok.inj read
        simp only [coapCmd, isApply, if_neg runs]
        split_ifs with empty differs notReady
        · exact ⟨rfl, invalid⟩
        · exact ⟨rfl, invalid⟩
        · exact ⟨rfl, invalid⟩
        · exact ⟨rfl, invalid⟩
        · refine absurd ⟨by simpa using runs, by simpa using empty, Nat.not_lt.mp fits, not_not.mp differs,
            by simpa using notReady⟩ stops

/-- A command that gets to the image header is an error for the right version and a reboot for any
other. -/
private theorem apply_of_reaches (imageVersion : Text) (isApply : textCmd config = .apply)
    (reaches : ReachesHeader behind env client config) :
    (applUpdateCoapCmd imageVersion behind env client config).1.rebootCmds =
      if (verifyVersion env client).1 = 0 then client.rebootCmds else client.rebootCmds + 1 := by
  obtain ⟨runs, path, fits, named, ready⟩ := reaches
  have notLong : ¬ versionLen < (resourceToken (parseNextText config ' ' cmdLen).2).length := Nat.not_lt.mpr fits
  have notEmpty : client.resourcePath.isEmpty = false := by simpa using path
  simp only [namedVersion] at named
  simp only [applUpdateCoapCmd, textVersion, normalize, if_neg notLong, coapCmd, isApply, runs, notEmpty,
    named, ready, Bool.false_eq_true, if_false, ne_eq, not_true_eq_false, Bool.not_true]
  split <;> rfl

/-- A version that equals that of the image header fits into its buffer. -/
private theorem namedVersion_short (rest : Text) (string : nul ∉ config) (fits : env.header.Fits)
    (named : stricmp (namedVersion config ++ rest) client.resourcePath = 0)
    (header : ∃ version, getPendingVersion client.dfu env.pending env.header = (0, version) ∧
      stricmp client.resourcePath version = 0) : (namedVersion config).length < versionLen := by
  obtain ⟨version, read, same⟩ := header
  have noNul : nul ∉ namedVersion config := fun found => string (mem_of_mem_namedVersion found)
  exact (length_le_of_stricmp noNul named same).trans_lt (getPendingVersion_length fits read)

/-- For every state, every text for `apply` and everything the bootloader answers: the reboot is
requested exactly when it may be if and only if the command stops before it reads the image header. -/
theorem applies_exactly_iff (imageVersion behind : Text) (env : Env) (client : Client) (config : Text)
    (isApply : textCmd config = .apply) (string : nul ∉ config) (fits : env.header.Fits) :
    AppliesExactly imageVersion behind env client config ↔ ¬ ReachesHeader behind env client config := by
  -- the right image is one the command gets to
  have reaches_of_can (can : CanApply env client config) : ReachesHeader behind env client config := by
    have short := namedVersion_short [] string fits (by simpa using can.named) can.header
    refine ⟨can.runs, can.path, short.le, ?_, can.ready⟩
    rw [bufferText, if_pos short]
    exact can.named
  have can_of_reaches (reaches : ReachesHeader behind env client config)
      (verified : (verifyVersion env client).1 = 0) : CanApply env client config := by
    have header := verifyVersion_eq_zero_iff.mp verified
    have named := reaches.named
    simp only [bufferText] at named
    split at named
    · exact ⟨reaches.runs, reaches.path, named, reaches.ready, header⟩
    · next full => exact absurd (namedVersion_short behind string fits named header) full
  constructor
  · intro exactly reaches
    have result := apply_of_reaches imageVersion isApply reaches
    by_cases verified : (verifyVersion env client).1 = 0
    · rw [if_pos verified, exactly.reboots.mpr (can_of_reaches reaches verified)] at result
      omega
    · rw [if_neg verified] at result
      exact verified (verifyVersion_eq_zero_iff.mpr (exactly.reboots.mp result).header)
  · intro stops
    obtain ⟨same, failed⟩ := apply_of_not_reaches imageVersion isApply stops
    refine ⟨?_, fun _ => ⟨failed, congrArg Client.rebootCmds same⟩⟩
    rw [same]
    exact ⟨fun more => by omega, fun can => absurd (reaches_of_can can) stops⟩

/-- What the bootloader answers if the image in the update area has a given major version and revision. -/
private def pendingImage (major revision : ℕ) : Env := { header := { major, revision } }

/-- After a download of version 1.0.1+0 another version is refused, and the image is not applied. -/
theorem applies_exactly_other_version :
    ∃ client, Path (Step updateDescriptiveBlock "1.0.0+0".toList) initial (oneResponse {}) client ∧
      client.downloadReady = true ∧
      AppliesExactly "1.0.0+0".toList [] (pendingImage 1 1) client "apply 2.0.0+0".toList := by
  have facts : ((oneResponse {}).foldlM (step updateDescriptiveBlock "1.0.0+0".toList) initial).map
      (fun client => (client.downloadReady, client.resourcePath)) = some (true, "1.0.1+0".toList) := by
    decide +kernel
  obtain ⟨client, ran, facts⟩ := Option.map_eq_some_iff.mp facts
  obtain ⟨ready, path⟩ := Prod.mk.inj facts
  refine ⟨client, Path.of_foldlM ran, ready, ?_⟩
  refine (applies_exactly_iff _ _ _ _ _ (by decide) (by decide)
    ⟨by decide, by decide, by decide, by decide⟩).mpr ?_
  intro reaches
  have named := reaches.named
  rw [path] at named
  exact absurd named (by decide)

/-- After a download of version 1.0.1+0 `apply 1.0.1+0` is an error for the image with this version,
and a reboot for the image 2.0.0+0. -/
theorem apply_right_image_refused :
    ∃ client, Path (Step updateDescriptiveBlock "1.0.0+0".toList) initial (oneResponse {}) client ∧
      CanApply (pendingImage 1 1) client "apply 1.0.1+0".toList ∧
      (applUpdateCoapCmd "1.0.0+0".toList [] (pendingImage 1 1) client "apply 1.0.1+0".toList).2 = einval ∧
      (applUpdateCoapCmd "1.0.0+0".toList [] (pendingImage 2 0) client "apply 1.0.1+0".toList).1.rebootCmds =
        client.rebootCmds + 1 ∧
      ¬ AppliesExactly "1.0.0+0".toList [] (pendingImage 1 1) client "apply 1.0.1+0".toList := by
  have facts : (((oneResponse {}).foldlM (step updateDescriptiveBlock "1.0.0+0".toList) initial).map
      fun client => ((client.downloadReady, client.resourcePath, client.rebootCmds),
        getPendingVersion client.dfu {} { major := 1, revision := 1 },
        ((applUpdateCoapCmd "1.0.0+0".toList [] (pendingImage 1 1) client "apply 1.0.1+0".toList).2,
          (applUpdateCoapCmd "1.0.0+0".toList [] (pendingImage 1 1) client
            "apply 1.0.1+0".toList).1.rebootCmds,
          (applUpdateCoapCmd "1.0.0+0".toList [] (pendingImage 2 0) client
            "apply 1.0.1+0".toList).1.rebootCmds))) =
      some ((true, "1.0.1+0".toList, 0), (0, "1.0.1+0".toList), (einval, 0, 1)) := by decide +kernel
  obtain ⟨client, ran, facts⟩ := Option.map_eq_some_iff.mp facts
  simp only [Prod.mk.injEq] at facts
  obtain ⟨⟨ready, path, none⟩, header, result, refused, rebooted⟩ := facts
  have can : CanApply (pendingImage 1 1) client "apply 1.0.1+0".toList := by
    refine ⟨rfl, by simp [path], ?_, ready, "1.0.1+0".toList, header, ?_⟩
    · rw [path]
      decide
    · rw [path]
      decide
  refine ⟨client, Path.of_foldlM ran, can, result, by rw [rebooted, none], ?_⟩
  intro exactly
  have requested := exactly.reboots.mpr can
  rw [refused, none] at requested
  contradiction

end CoapsClient.ApplUpdate
